import Miaouchat.Datagram

/-!
# Padding

The headers say of Pad1 and PadN that they are to be ignored at reception. For
Pad1 the `switch` of `process_datagram` has a `break`; for PadN it has a
`return`, and the TLVs after it are never looked at.

So putting a PadN in front of a TLV takes away what its handler does, and the
padding of a message can be ignored only where no handler does anything: a long
Hello of a current neighbour, an Ack of nothing that is pending, a name with no
address. `Quiet` says so of a message and a state, in terms of what the handlers
look at, and `ignoresPadding_iff` that it is exactly what is needed.
-/

namespace Miaouchat

/-- **The second list is the first with padding inserted**, anywhere and any
number of times. -/
inductive Padded : List Tlv → List Tlv → Prop
  | nil : Padded [] []
  | keep (t : Tlv) {ts ts' : List Tlv} (h : Padded ts ts') : Padded (t :: ts) (t :: ts')
  | pad {p : Tlv} (hp : p.type = TlvType.pad1.code ∨ p.type = TlvType.padn.code)
      {ts ts' : List Tlv} (h : Padded ts ts') : Padded ts (p :: ts')

theorem Padded.refl : ∀ ts : List Tlv, Padded ts ts
  | [] => .nil
  | t :: ts => .keep t (.refl ts)

/-- **The two outcomes are the same**, as far as the maps of neighbours, the
messages, the pending lists and the datagrams sent go. -/
structure SameOutcome (s s' : State) : Prop where
  cur : s'.cur = s.cur
  pot : s'.pot = s.pot
  msgList : s'.msgList = s.msgList
  msgMap : s'.msgMap = s.msgMap
  pending : ∀ e, (s'.entries e).map NeighbourEntry.msgToSend
    = (s.entries e).map NeighbourEntry.msgToSend
  sent : s'.sent = s.sent

namespace SameOutcome

variable {s s' s'' : State}

theorem refl (s : State) : SameOutcome s s := ⟨rfl, rfl, rfl, rfl, fun _ => rfl, rfl⟩

theorem symm (h : SameOutcome s s') : SameOutcome s' s :=
  ⟨h.cur.symm, h.pot.symm, h.msgList.symm, h.msgMap.symm, fun e => (h.pending e).symm,
    h.sent.symm⟩

theorem trans (h : SameOutcome s s') (h' : SameOutcome s' s'') : SameOutcome s s'' :=
  ⟨h'.cur.trans h.cur, h'.pot.trans h.pot, h'.msgList.trans h.msgList,
    h'.msgMap.trans h.msgMap, fun e => (h'.pending e).trans (h.pending e),
    h'.sent.trans h.sent⟩

end SameOutcome

/-- **Padding is ignored** in what `process_datagram` does with the message `m`
of `client` in the state `s`. -/
def IgnoresPadding (env : ℕ → Env) (m : Msg) (client : SockaddrIn6) (s : State) : Prop :=
  ∀ s₁, (processMsg env m client).exec s = .ok ((), s₁) → ∀ ts', Padded m.body ts' →
    ∃ s₂, (processMsg env { m with body := ts', tlvNb := ts'.length } client).exec s
      = .ok ((), s₂) ∧ SameOutcome s₁ s₂

/-! ## Handlers that do nothing -/

/-- There is no address for the name. -/
def NoAddress (env : Env) (host port : List Char) : Prop :=
  (env.getaddrinfo host port).getD [] = []

/-- `rm_nbr_msg` takes nothing off the list: it finds no message, or
`dllist_remove` refuses the index. -/
def NothingToRemove (id : UInt64) (nonce : UInt32) (l : Dllist DllistMsg) : Prop :=
  l.first = none ∨ ∀ i d l', dllistSearch l (fun d => d.body.senderId = id ∧ d.body.nonce = nonce)
    = .ok (some i) → dllistRemove l (UInt64.ofNat i) = .ok (d, l') → l' = l

/-- **The handler of the body finds nothing to do** in the state `s`. -/
def Idle (env : Env) (client : SockaddrIn6) (s : State) : TlvBody → Prop
  | .hello b => b.isLong = true ∧
    ((mapGet s.cur (newNeighbourKeySock env client)).isSome
      ∨ mapGet s.pot (newNeighbourKeySock env client) = none
        ∧ NoAddress env (env.inetNtop env.clientSlot) (portText client.port))
  | .neighbour b => NoAddress env (env.inetNtop b.ip) (portText b.port)
  | .ack b => ∀ e ent, mapGet s.cur (newNeighbourKeySock env client) = some e →
    s.entries e = some ent → NothingToRemove b.senderId b.nonce ent.msgToSend
  | .data _ | .goAway _ => False
  | .empty | .padn _ | .warning _ => True

/-- **No TLV before the first PadN has anything to do** in the state `s`, where
`k` handlers have been called. -/
def Quiet (env : ℕ → Env) (client : SockaddrIn6) (s : State) : ℕ → List Tlv → Prop
  | _, [] => True
  | k, t :: ts =>
    if t.type = TlvType.padn.code then True
    else match handler (env k) client t.body with
      | none => Quiet env client s k ts
      | some _ => Idle (env k) client s t.body ∧ Quiet env client s (k + 1) ts

section Handlers

variable {env : Env} {client : SockaddrIn6} {s s' : State}

/-- A name without addresses adds nobody. -/
theorem exec_addNewNeighbour_noAddress {host port : List Char} (h : NoAddress env host port)
    (s : State) : (addNewNeighbour env host port).exec s = .ok ((), s) := by
  rw [exec_addNewNeighbour, h]
  rfl

/-- A name with an address has a datagram sent to it. -/
theorem noAddress_of_sent {host port : List Char}
    (hrun : (addNewNeighbour env host port).exec s = .ok ((), s')) (hsent : s'.sent = s.sent) :
    NoAddress env host port := by
  rw [exec_addNewNeighbour] at hrun
  cases hrun
  rw [State.sent_withAddresses, List.append_right_eq_self, List.map_eq_nil_iff] at hsent
  exact hsent

/-- **`rm_nbr_msg` leaves the list of the entry as it was exactly when there is
nothing to remove**, and then the state too. -/
theorem rmNbrMsg_same_iff {id : UInt64} {nonce : UInt32} {e : ℕ} {ent : NeighbourEntry}
    {r : Bool} (he : s.entries e = some ent) (hrun : rmNbrMsg id nonce e s = .ok (r, s')) :
    ((s'.entries e).map NeighbourEntry.msgToSend = some ent.msgToSend
        ↔ NothingToRemove id nonce ent.msgToSend)
      ∧ (NothingToRemove id nonce ent.msgToSend → s' = s) := by
  have hsame : s' = s → NothingToRemove id nonce ent.msgToSend →
      ((s'.entries e).map NeighbourEntry.msgToSend = some ent.msgToSend
          ↔ NothingToRemove id nonce ent.msgToSend)
        ∧ (NothingToRemove id nonce ent.msgToSend → s' = s) := by
    rintro rfl hnothing
    rw [he]
    exact ⟨iff_of_true rfl hnothing, fun _ => rfl⟩
  unfold rmNbrMsg at hrun
  rw [bind_ok (entryAt_ok he)] at hrun
  split at hrun
  · rename_i hfirst
    cases hrun
    exact hsame rfl (.inl hfirst)
  · rename_i hfirst
    cases hsearch : dllistSearch ent.msgToSend
        (fun d => d.body.senderId = id ∧ d.body.nonce = nonce) with
    | error f =>
      rw [bind_error (lift_error hsearch s)] at hrun
      cases hrun
    | ok found =>
      rw [bind_ok (lift_ok hsearch s)] at hrun
      cases found with
      | none =>
        cases hrun
        refine hsame rfl (.inr fun i d l' h => ?_)
        cases hsearch.symm.trans h
      | some i =>
        dsimp only at hrun
        cases hremove : dllistRemove ent.msgToSend (UInt64.ofNat i) with
        | error f =>
          rw [bind_error (lift_error hremove s)] at hrun
          cases hrun
        | ok x =>
          obtain ⟨d, l⟩ := x
          rw [bind_ok (lift_ok hremove s)] at hrun
          cases hrun
          have hiff : NothingToRemove id nonce ent.msgToSend ↔ l = ent.msgToSend := by
            refine ⟨fun h => (h.resolve_left hfirst) i d l hsearch hremove, fun h => .inr ?_⟩
            intro i' d' l' hs' hr'
            cases hsearch.symm.trans hs'
            cases hremove.symm.trans hr'
            exact h
          rw [hiff]
          refine ⟨?_, ?_⟩
          · show (Function.update s.entries e _ e).map _ = _ ↔ _
            rw [Function.update_self, Option.map_some, Option.some_inj]
          · rintro rfl
            show { s with entries := Function.update s.entries e (some ent) } = s
            rw [Function.update_eq_self_iff.mpr he.symm]

/-- What an idle handler leaves is what it found. -/
theorem Idle.exec_eq {b : TlvBody} (h : Idle env client s b) {call : Code Unit}
    (hcall : handler env client b = some call) (hrun : call.exec s = .ok ((), s')) :
    s' = s := by
  cases b with
  | empty | padn _ | warning _ => cases hcall
  | data _ | goAway _ => exact h.elim
  | hello b =>
    obtain rfl := Option.some.inj hcall
    obtain ⟨hlong, hpeer⟩ := h
    have hanswered : s.answered env b client = s := if_pos hlong
    rw [exec_processHello, hanswered] at hrun
    rcases admitPeer_cases hrun with ⟨-, hsame⟩ | ⟨hcur, hpot, -⟩ | ⟨hcur, -, hadd⟩
    · exact hsame
    · rcases hpeer with hcur' | ⟨hpot', -⟩
      · exact absurd hcur (Option.isSome_iff_ne_none.mp hcur')
      · exact absurd hpot' hpot
    · have hno := (hpeer.resolve_left fun hcur' =>
        Option.isSome_iff_ne_none.mp hcur' hcur).2
      rw [exec_addNewNeighbour_noAddress hno] at hadd
      cases hadd
      rfl
  | neighbour b =>
    obtain rfl := Option.some.inj hcall
    replace hrun : (addNewNeighbour env _ _).exec s = _ := hrun
    rw [exec_addNewNeighbour_noAddress h] at hrun
    cases hrun
    rfl
  | ack b =>
    obtain rfl := Option.some.inj hcall
    obtain ⟨e, ent, r, he, hent, hrm⟩ := processAck_eq_ok hrun
    exact (rmNbrMsg_same_iff hent hrm).2 (h e ent he hent)

/-- Accepting a message takes back no datagram. -/
theorem moves_sentAfter_addMsg (env : Env) (b : DataBody) :
    Moves SentAfter (addMsg env b).exec := by
  have hkeep : ∀ {f : State → State}, (∀ s, (f s).sent = s.sent) →
      Moves SentAfter (modify f : M Unit) := fun h =>
    Moves.modify fun s => by rw [SentAfter, h s]
  have hfound : Moves SentAfter (isInMsgList b).exec := by
    refine Moves.exec_bind (Moves.take _) fun _ => Moves.exec_bind Moves.get.call fun s => ?_
    refine Moves.exec_ite (Moves.exec_pure _) ?_
    exact Moves.exec_bind (Moves.get.bind fun _ => (Moves.lift _).bind fun _ =>
      Moves.pure _).call fun _ => Moves.exec_bind (Moves.give _) fun _ => Moves.exec_pure _
  have hlist : ∀ key, Moves SentAfter (listMsg key) := fun key =>
    Moves.get.bind fun _ => (Moves.lift _).bind fun _ => hkeep fun _ => rfl
  have hqueue : ∀ e, Moves SentAfter (enqueue env (dataKey b) b e) := fun e =>
    (moves_entryAt e).bind fun _ => (Moves.lift _).bind fun _ => hkeep fun _ => rfl
  refine Moves.exec_bind hfound fun known => Moves.exec_ite (Moves.exec_pure _) ?_
  refine Moves.exec_bind (Moves.take _) fun _ =>
    Moves.exec_bind (Moves.call (hkeep fun _ => rfl)) fun _ => ?_
  refine Moves.exec_bind (Moves.take _) fun _ => Moves.exec_bind (hlist _).call fun _ => ?_
  refine Moves.exec_bind (Moves.take _) fun _ =>
    Moves.exec_bind (moves_forCurNeighbours hqueue).call fun _ => ?_
  exact Moves.exec_bind (Moves.call (hkeep fun _ => rfl)) fun _ =>
    Moves.exec_bind (Moves.give _) fun _ => Moves.exec_bind (Moves.give _) fun _ =>
      Moves.exec_bind (Moves.give _) fun _ => Moves.exec_pure _

/-- A datagram sent is not the outcome of doing nothing. -/
theorem not_sameOutcome_of_sent {pair : SockaddrIn6} {bytes : List UInt8}
    (h : SentAfter (s.withSent pair bytes) s') : ¬ SameOutcome s s' := by
  intro hsame
  have hlen := h.length_le
  rw [hsame.sent] at hlen
  simp [State.withSent] at hlen

/-- **A handler whose outcome is that of doing nothing was idle.** -/
theorem idle_of_sameOutcome {b : TlvBody} {call : Code Unit}
    (hcall : handler env client b = some call) (hrun : call.exec s = .ok ((), s'))
    (hsame : SameOutcome s s') : Idle env client s b := by
  cases b with
  | empty | padn _ | warning _ => cases hcall
  | hello b =>
    obtain rfl := Option.some.inj hcall
    have hlong : b.isLong = true := by
      by_contra hshort
      have hanswered : s.answered env b client = s.withSent client _ := if_neg hshort
      rw [exec_processHello, hanswered] at hrun
      exact not_sameOutcome_of_sent
        ((neighbourly_sentAfter.admitPeer ..).rel _ _ _ hrun) hsame
    have hanswered : s.answered env b client = s := if_pos hlong
    rw [exec_processHello, hanswered] at hrun
    refine ⟨hlong, ?_⟩
    rcases admitPeer_cases hrun with ⟨hcur, -⟩ | ⟨-, hpot, r, htransfer⟩ | ⟨-, hpot, hadd⟩
    · exact .inl (Option.isSome_iff_ne_none.mpr hcur)
    · obtain ⟨-, hgone, -⟩ :=
        mapTransferNeighbour_eq_ok (by decide : Nbrs.pot ≠ .cur) htransfer
      replace hgone : mapGet s'.pot (newNeighbourKeySock env client) = none := hgone
      rw [hsame.pot] at hgone
      exact absurd hgone hpot
    · exact .inr ⟨hpot, noAddress_of_sent hadd hsame.sent⟩
  | neighbour b =>
    obtain rfl := Option.some.inj hcall
    exact noAddress_of_sent hrun hsame.sent
  | data b =>
    obtain rfl := Option.some.inj hcall
    rw [exec_processData] at hrun
    obtain ⟨r, hadd⟩ := map_eq_ok hrun
    exact not_sameOutcome_of_sent ((moves_sentAfter_addMsg env b).rel _ _ _ hadd) hsame
  | ack b =>
    obtain rfl := Option.some.inj hcall
    obtain ⟨e, ent, r, he, hent, hrm⟩ := processAck_eq_ok hrun
    rintro e' ent' he' hent'
    cases he.symm.trans he'
    cases hent.symm.trans hent'
    refine (rmNbrMsg_same_iff hent hrm).1.mp ?_
    rw [hsame.pending, hent]
    rfl
  | goAway b =>
    obtain rfl := Option.some.inj hcall
    obtain ⟨e, s₁, moved, he, -, htransfer⟩ := processGoAway_eq_ok hrun
    obtain ⟨-, hgone, -⟩ :=
      mapTransferNeighbour_eq_ok (by decide : Nbrs.cur ≠ .pot) htransfer
    replace hgone : mapGet s'.cur (newNeighbourKeySock env client) = none := hgone
    rw [hsame.cur, he] at hgone
    cases hgone

end Handlers

/-! ## The loop -/

section Loop

variable {env : ℕ → Env} {client : SockaddrIn6} {s s₁ : State} {k : ℕ} {ts : List Tlv}

/-- Padding has no handler. -/
theorem handler_pad {p : Tlv} (hp : p.type = TlvType.pad1.code ∨ p.type = TlvType.padn.code)
    (env : Env) (client : SockaddrIn6) : handler env client p.body = none := by
  have hkind := p.fits
  have hpad : bodyKind p.type = none ∨ bodyKind p.type = some .padn := by
    rcases hp with hp | hp <;> rw [hp]
    · exact .inl rfl
    · exact .inr rfl
  cases hbody : p.body with
  | empty | padn _ | warning _ => rfl
  | hello _ | neighbour _ | data _ | ack _ | goAway _ =>
    rw [hbody] at hkind
    rcases hpad with hpad | hpad <;> rw [hpad] at hkind <;> cases hkind

/-- Where no TLV has anything to do, nothing is done, whatever padding is
inserted. -/
theorem Quiet.exec_padded (hq : Quiet env client s k ts)
    (hrun : (processTlvs env client k ts).exec s = .ok ((), s₁)) {ts' : List Tlv}
    (hpad : Padded ts ts') : (processTlvs env client k ts').exec s = .ok ((), s) := by
  induction hpad generalizing k with
  | nil => rfl
  | keep t hpad ih =>
    by_cases ht : t.type = TlvType.padn.code
    · rw [processTlvs_padn ht]
      rfl
    · rw [Quiet, if_neg ht] at hq
      cases hcall : handler (env k) client t.body with
      | none =>
        rw [hcall] at hq
        rw [processTlvs_skip ht hcall] at hrun ⊢
        exact ih hq hrun
      | some call =>
        rw [hcall] at hq
        rw [processTlvs_call ht hcall] at hrun ⊢
        obtain ⟨_, s₂, hfirst, hrest⟩ := Prog.exec_bind_eq_ok hrun
        obtain rfl := hq.1.exec_eq hcall hfirst
        rw [Prog.exec_bind_ok hfirst]
        exact ih hq.2 hrest
  | pad hp hpad ih =>
    rename_i p _ _
    by_cases ht : p.type = TlvType.padn.code
    · rw [processTlvs_padn ht]
      rfl
    · rw [processTlvs_skip ht (handler_pad hp _ _)]
      exact ih hq hrun

/-- **If inserting padding changes no outcome, then no TLV has anything to do.**
A PadN before a TLV and one after it cut the run short at two places between
which only that TLV is handled. -/
theorem quiet_of_padded (hrun : (processTlvs env client k ts).exec s = .ok ((), s₁))
    (hall : ∀ ts', Padded ts ts' → ∃ s₂,
      (processTlvs env client k ts').exec s = .ok ((), s₂) ∧ SameOutcome s₁ s₂) :
    Quiet env client s k ts := by
  induction ts generalizing k with
  | nil => trivial
  | cons t ts ih =>
    have hpadn : (newTlvPadn 0).type = TlvType.padn.code := rfl
    rw [Quiet]
    split
    · trivial
    · rename_i ht
      cases hcall : handler (env k) client t.body with
      | none =>
        rw [processTlvs_skip ht hcall] at hrun
        refine ih hrun fun ts' hpad => ?_
        rw [← processTlvs_skip ht hcall]
        exact hall _ (.keep t hpad)
      | some call =>
        rw [processTlvs_call ht hcall] at hrun
        obtain ⟨_, s₂, hfirst, hrest⟩ := Prog.exec_bind_eq_ok hrun
        -- a PadN before the TLV
        have hbefore : SameOutcome s₁ s := by
          obtain ⟨s₃, hs₃, hsame⟩ := hall _ (.pad (.inr hpadn) (.refl (t :: ts)))
          rw [processTlvs_padn hpadn] at hs₃
          cases hs₃
          exact hsame
        -- and one after it
        have hafter : SameOutcome s₁ s₂ := by
          obtain ⟨s₃, hs₃, hsame⟩ := hall _ (.keep t (.pad (.inr hpadn) (.refl ts)))
          rw [processTlvs_call ht hcall, Prog.exec_bind_ok hfirst, processTlvs_padn hpadn]
            at hs₃
          cases hs₃
          exact hsame
        have hidle := idle_of_sameOutcome hcall hfirst (hbefore.symm.trans hafter)
        obtain rfl := hidle.exec_eq hcall hfirst
        refine ⟨hidle, ih hrest fun ts' hpad => ?_⟩
        rw [← Prog.exec_bind_ok (q := fun _ => processTlvs env client (k + 1) ts') hfirst,
          ← processTlvs_call ht hcall]
        exact hall _ (.keep t hpad)

end Loop

/-- **Padding is ignored exactly in messages with nothing to do**: where each TLV
before the first PadN is a Pad1, a Warning or of an unknown type, or its handler
finds nothing to do in the state. -/
theorem ignoresPadding_iff (env : ℕ → Env) {m : Msg} (client : SockaddrIn6) {s s₁ : State}
    (hmagic : m.magic = 93) (hversion : m.version = 2)
    (hrun : (processMsg env m client).exec s = .ok ((), s₁)) :
    IgnoresPadding env m client s ↔ Quiet env client s 0 m.body := by
  have hmsg : ∀ ts', processMsg env { m with body := ts', tlvNb := ts'.length } client
      = processTlvs env client 0 ts' := fun ts' => processMsg_of_header hmagic hversion
  rw [processMsg_of_header hmagic hversion] at hrun
  unfold IgnoresPadding
  rw [processMsg_of_header hmagic hversion]
  constructor
  · intro h
    refine quiet_of_padded hrun fun ts' hpad => ?_
    rw [← hmsg]
    exact h s₁ hrun ts' hpad
  · intro hq s₂ hrun₂ ts' hpad
    have hquiet := hq.exec_padded hrun (.refl m.body)
    cases hquiet.symm.trans hrun₂
    refine ⟨s, ?_, .refl s⟩
    rw [hmsg]
    exact hq.exec_padded hrun hpad

/-- A message of a long Hello, from a stranger whose name has no address, and a
PadN. -/
theorem ignoresPadding_iff_hello :
    IgnoresPadding (fun _ => quietEnv) (newMsg [newTlvHello true 7 1, newTlvPadn 0])
        ⟨Vector.replicate 16 1, 48132⟩ (State.init fun _ => (none, none))
      ↔ Quiet (fun _ => quietEnv) ⟨Vector.replicate 16 1, 48132⟩
          (State.init fun _ => (none, none)) 0 [newTlvHello true 7 1, newTlvPadn 0] :=
  ignoresPadding_iff _ _ rfl rfl rfl

/-- A short Hello of a current neighbour, with a PadN after it, is answered, and with
one in front of it too it is not. -/
theorem not_ignoresPadding_hello :
    ¬ ∀ (env : ℕ → Env) (m : Msg) (client : SockaddrIn6) (s : State),
        m.magic = 93 → m.version = 2 → IgnoresPadding env m client s := by
  intro hall
  let hello : Msg := newMsg [newTlvHello false 7 0, newTlvPadn 0]
  have h := hall (fun _ => shortEnv) hello ⟨shortIp 1, 257⟩ (oneNeighbour 257) rfl rfl
  obtain ⟨s₂, hrun, hsame⟩ := h _ rfl _ (.pad (.inr (rfl : (newTlvPadn 0).type = _)) (.refl _))
  cases hrun
  -- the answer is missing
  cases congrArg List.length hsame.sent

end Miaouchat
