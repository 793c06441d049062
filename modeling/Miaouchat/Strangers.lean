import Miaouchat.Datagram

/-!
# Strangers

Anyone can send the client an Ack or a GoAway. The handlers of both look their
sender up among the current neighbours, and follow at once the pointer that they
get. The test for `NULL` that `process_ack` makes comes after, and
`process_go_away` makes none. A TLV of either type from a peer that is not a
current neighbour stops the client, in any state.

From a current neighbour an Ack is harmless in every state the client reaches,
where nothing is pending (`harmless_processAck_iff`).
-/

namespace Miaouchat

/-- The peer is not a current neighbour. -/
def Stranger (env : Env) (pair : SockaddrIn6) (s : State) : Prop :=
  mapGet s.cur (newNeighbourKeySock env pair) = none

/-- **A call is harmless**: it returns, and leaves both maps of neighbours, the
pending messages and the messages received as they were. -/
def Harmless (call : Code Unit) (s : State) : Prop :=
  ∃ s', call.exec s = .ok ((), s') ∧ s'.cur = s.cur ∧ s'.pot = s.pot
    ∧ s'.entries = s.entries ∧ s'.msgList = s.msgList ∧ s'.msgMap = s.msgMap

/-- A body of one of the two types that only a current neighbour is to send. -/
def OfNeighbour : TlvBody → Prop
  | .ack _ | .goAway _ => True
  | .empty | .padn _ | .hello _ | .neighbour _ | .data _ | .warning _ => False

section Stranger

variable {env : Env} {pair : SockaddrIn6} {s : State}

/-- **The handlers of both types follow `NULL`** for a stranger. -/
theorem Stranger.exec_handler (h : Stranger env pair s) {body : TlvBody}
    (hbody : OfNeighbour body) {call : Code Unit} (hcall : handler env pair body = some call) :
    call.exec s = .error .null := by
  cases body with
  | ack b =>
    cases hcall
    exact exec_processAck_none b h
  | goAway b =>
    cases hcall
    exact exec_processGoAway_none b h
  | empty | padn _ | hello _ | neighbour _ | data _ | warning _ => exact hbody.elim

/-- **A datagram of a stranger stops the client** where the first of its TLVs
that is handled is of one of the two types. -/
theorem Stranger.exec_processTlvs {env : ℕ → Env} {k : ℕ} (h : Stranger (env k) pair s)
    {ts ts' : List Tlv} {t : Tlv} (hbody : OfNeighbour t.body)
    (hskip : ∀ t' ∈ ts, t'.type ≠ TlvType.padn.code ∧ handler (env k) pair t'.body = none) :
    (processTlvs env pair k (ts ++ t :: ts')).exec s = .error .null := by
  induction ts with
  | nil =>
    have hcall : ∃ call, handler (env k) pair t.body = some call := by
      cases hb : t.body with
      | ack b => exact ⟨_, rfl⟩
      | goAway b => exact ⟨_, rfl⟩
      | empty | padn _ | hello _ | neighbour _ | data _ | warning _ =>
        rw [hb] at hbody
        exact hbody.elim
    have hpadn : t.type ≠ TlvType.padn.code := by
      intro ht
      have hkind : t.body.kind = some .padn := by
        rw [t.fits, ht]
        rfl
      cases hb : t.body with
      | padn b =>
        rw [hb] at hbody
        exact hbody.elim
      | empty | hello _ | neighbour _ | data _ | ack _ | goAway _ | warning _ =>
        rw [hb] at hkind
        cases hkind
    obtain ⟨call, hcall⟩ := hcall
    rw [List.nil_append, processTlvs_call hpadn hcall, Prog.exec_bind,
      h.exec_handler hbody hcall]
    rfl
  | cons t' ts ih =>
    obtain ⟨hpadn, hnone⟩ := hskip t' List.mem_cons_self
    rw [List.cons_append, processTlvs_skip hpadn hnone]
    exact ih fun t'' ht'' => hskip t'' (List.mem_cons_of_mem _ ht'')

/-- **An Ack is harmless exactly where it comes from a current neighbour**, in
every state the client reaches. -/
theorem Reachable.harmless_processAck_iff (h : Reachable s) (b : AckBody) :
    Harmless (processAck env b pair) s ↔ ¬ Stranger env pair s := by
  constructor
  · rintro ⟨s', hrun, -⟩ hstranger
    cases (exec_processAck_none b hstranger).symm.trans hrun
  · intro hknown
    obtain ⟨e, he⟩ := Option.ne_none_iff_exists'.mp hknown
    obtain ⟨ent, hent⟩ := Option.ne_none_iff_exists'.mp (h.good.nbrs.alive .cur _ e he)
    have hrm : rmNbrMsg b.senderId b.nonce e s = .ok (false, s) := by
      unfold rmNbrMsg
      rw [bind_ok (entryAt_ok hent), if_pos (h.good.nbrs.first_eq hent)]
      rfl
    refine ⟨s, ?_, rfl, rfl, rfl, rfl, rfl⟩
    rw [exec_processAck b he, hrm]
    rfl

/-- **A GoAway is never harmless**: from a current neighbour it is to take the
neighbour out of the map. -/
theorem not_harmless_processGoAway (b : GoAwayBody) :
    ¬ Harmless (processGoAway env b pair) s := by
  rintro ⟨s', hrun, hcur, -⟩
  obtain ⟨e, s₁, moved, he, -, htransfer⟩ := processGoAway_eq_ok hrun
  obtain ⟨-, hgone, -⟩ := mapTransferNeighbour_eq_ok (by decide : Nbrs.cur ≠ .pot) htransfer
  have hstill : mapGet s'.cur (newNeighbourKeySock env pair) = some e := by
    rw [hcur]
    exact he
  cases hstill.symm.trans hgone

/-- **Neither an Ack nor a GoAway of a stranger is harmless**, in any state the
client reaches. -/
theorem not_harmless_of_stranger (h : Reachable s) (hstranger : Stranger env pair s)
    (b : AckBody) (b' : GoAwayBody) :
    ¬ Harmless (processAck env b pair) s ∧ ¬ Harmless (processGoAway env b' pair) s :=
  ⟨fun hack => (h.harmless_processAck_iff b).mp hack hstranger, not_harmless_processGoAway b'⟩

end Stranger

/-- At its start the client has no neighbour. -/
theorem stranger_init (env : Env) (pair : SockaddrIn6) (junk : ℕ → Option ℕ × Option ℕ) :
    Stranger env pair (State.init junk) :=
  mapGet_mapInit _

/-- A client that has just started gets an Ack, or a GoAway. -/
theorem not_harmless_of_stranger_init :
    ¬ Harmless (processAck shortEnv ⟨7, 1⟩ ⟨shortIp 1, 257⟩) (State.init fun _ => (none, none))
      ∧ ¬ Harmless (processGoAway shortEnv ⟨2, false, []⟩ ⟨shortIp 1, 257⟩)
        (State.init fun _ => (none, none)) :=
  not_harmless_of_stranger (.init _) (stranger_init ..) ⟨7, 1⟩ ⟨2, false, []⟩

/-- It is stopped by the Ack. -/
theorem not_stranger_harmless :
    ¬ ∀ (env : Env) (pair : SockaddrIn6) (s : State) (b : AckBody) (b' : GoAwayBody),
        Reachable s → Stranger env pair s →
        Harmless (processAck env b pair) s ∧ Harmless (processGoAway env b' pair) s := by
  intro hall
  obtain ⟨⟨s', hrun, -⟩, -⟩ := hall shortEnv ⟨shortIp 1, 257⟩ (State.init fun _ => (none, none))
    ⟨7, 1⟩ ⟨2, false, []⟩ (.init _) (stranger_init ..)
  cases (exec_processAck_none ⟨7, 1⟩ (stranger_init ..)).symm.trans hrun

end Miaouchat
