import Miaouchat.Datagram
import Miaouchat.Lib.Runs
import Miaouchat.NeighbourKeys

/-!
# One status at a time

A neighbour is to be a current or a potential one, and not both.
`process_hello` looks its peer up in both maps before it adds it.
`add_new_neighbour` looks in the map the send to an address has chosen, and in
that one only: an address met once with a send that fails and once with one
that goes through is bound in both.

That is the one way to break it. A run of calls keeps to one status in all its
states exactly when no call adds an address whose key is bound in the other
map, or one key with both outcomes (`oneStatus_iff_keepsStatus`).
-/

namespace Miaouchat

/-- **No key is bound in both maps.** -/
def OneStatus (s : State) : Prop :=
  ∀ key, mapGet s.cur key = none ∨ mapGet s.pot key = none

/-- A key bound in a map is bound in it only. -/
theorem oneStatus_iff_other {s : State} :
    OneStatus s ↔ ∀ w key, (mapGet (s.nbrs w) key).isSome →
      mapGet (s.nbrs w.other) key = none := by
  constructor
  · intro h w key hbound
    cases w with
    | cur => exact (h key).resolve_left (Option.isSome_iff_ne_none.mp hbound)
    | pot => exact (h key).resolve_right (Option.isSome_iff_ne_none.mp hbound)
  · intro h key
    cases hcur : mapGet s.cur key with
    | none => exact .inl rfl
    | some e => exact .inr (h .cur key (Option.isSome_of_mem hcur))

/-- The calls that add or move neighbours. -/
inductive NbrCall
  | addNewNeighbour (host port : List Char)
  | processNeighbour (b : NeighbourBody)
  | processHello (b : HelloBody) (client : SockaddrIn6)
  | processGoAway (b : GoAwayBody) (pair : SockaddrIn6)
  /-- `map_transfer_neighbour` from a map to the other. -/
  | transfer (w : Nbrs) (key : List Char)

namespace NbrCall

/-- The code of a call. -/
def code (env : Env) : NbrCall → Code Unit
  | addNewNeighbour host port => Miaouchat.addNewNeighbour env host port
  | processNeighbour b => Miaouchat.processNeighbour env b
  | processHello b client => Miaouchat.processHello env b client
  | processGoAway b pair => Miaouchat.processGoAway env b pair
  | transfer w key => do
    let _ ← Prog.call (mapTransferNeighbour env w w.other key)

/-- The addresses that a call has `add_new_neighbour` add: those of the host, or
of a peer that neither map knows. -/
def resolved (env : Env) (s : State) : NbrCall → List SockaddrIn6
  | addNewNeighbour host port => (env.getaddrinfo host port).getD []
  | processNeighbour b => (env.getaddrinfo (env.inetNtop b.ip) (portText b.port)).getD []
  | processHello _ client =>
    let key := newNeighbourKeySock env client
    if (mapGet s.cur key).isNone ∧ (mapGet s.pot key).isNone then
      (env.getaddrinfo (env.inetNtop env.clientSlot) (portText client.port)).getD []
    else []
  | processGoAway _ _ | transfer _ _ => []

end NbrCall

/-- **The condition on a call**: no address it adds has its key bound in the
map that the address does not go to, and no two of them have one key and go to
different maps. -/
def KeepsStatus (s : State) (call : Env × NbrCall) : Prop :=
  let env := call.1
  let ps := call.2.resolved env s
  (∀ i p, ps[i]? = some p → mapGet (s.nbrs (env.outcome i).other) (addressKey env p) = none)
    ∧ ∀ i j p q, ps[i]? = some p → ps[j]? = some q → addressKey env p = addressKey env q →
      env.outcome i = env.outcome j

/-- A call on the host that returns. -/
def NbrStep (host : Env) (s : State) (call : Env × NbrCall) (s' : State) : Prop :=
  SameHost host call.1 ∧ (call.2.code call.1).exec s = .ok ((), s')

/-! ## What a call does -/

/-- The maps are the same, and the entries have the addresses they had. -/
structure SameNbrs (s s' : State) : Prop where
  nbrs : ∀ w, s'.nbrs w = s.nbrs w
  entryCount : s'.entryCount = s.entryCount
  addr : ∀ e, (s'.entries e).map NeighbourEntry.addr = (s.entries e).map NeighbourEntry.addr

namespace SameNbrs

variable {s s' : State} {host env : Env}

theorem refl (s : State) : SameNbrs s s := ⟨fun _ => rfl, rfl, fun _ => rfl⟩

theorem withSent (s : State) (p : SockaddrIn6) (bytes : List UInt8) :
    SameNbrs s (s.withSent p bytes) :=
  ⟨s.nbrs_withSent p bytes, rfl, fun _ => rfl⟩

theorem answered (s : State) (env : Env) (b : HelloBody) (client : SockaddrIn6) :
    SameNbrs s (s.answered env b client) := by
  unfold State.answered
  split
  · exact .refl s
  · exact .withSent ..

theorem emptyPending {e : ℕ} (h : emptyPending e s = .ok ((), s')) : SameNbrs s s' := by
  obtain ⟨ent, s₁, hent, hrest⟩ := bind_eq_ok h
  obtain ⟨l, s₂, hl, hset⟩ := bind_eq_ok hrest
  obtain ⟨he, rfl⟩ := entryAt_eq_ok hent
  obtain ⟨-, rfl⟩ := lift_eq_ok hl
  cases hset
  refine ⟨fun w => by cases w <;> rfl, rfl, fun e' => ?_⟩
  by_cases hee : e' = e
  · subst hee
    show Option.map NeighbourEntry.addr (Function.update s₂.entries e' _ e') = _
    rw [Function.update_self, he]
    rfl
  · exact congrArg (Option.map NeighbourEntry.addr) (Function.update_of_ne hee ..)

theorem keyed (h : SameNbrs s s') (hs : Keyed host s) : Keyed host s' := by
  intro w key e he
  rw [h.nbrs] at he
  obtain ⟨hlt, ent, hent, hkey⟩ := hs w key e he
  have haddr := h.addr e
  rw [hent] at haddr
  obtain ⟨ent', hent', heq⟩ := Option.map_eq_some_iff.mp haddr
  refine ⟨h.entryCount ▸ hlt, ent', hent', ?_⟩
  rw [hkey]
  exact congrArg (addressKey host) heq.symm

theorem oneStatus_iff (h : SameNbrs s s') : OneStatus s' ↔ OneStatus s := by
  have hcur : s'.cur = s.cur := h.nbrs .cur
  have hpot : s'.pot = s.pot := h.nbrs .pot
  unfold OneStatus
  rw [hcur, hpot]

end SameNbrs

/-- **What a call does**: it adds addresses, or moves a neighbour. -/
theorem NbrStep.cases {host : Env} {s s' : State} {env : Env} {call : NbrCall}
    (h : NbrStep host s (env, call) s') :
    ∃ s₁, SameNbrs s s₁
      ∧ ((∃ hello, s' = State.withAddresses env hello 0 (call.resolved env s) s₁)
        ∨ call.resolved env s = []
          ∧ ∃ w key moved, mapTransferNeighbour env w w.other key s₁ = .ok (moved, s')) := by
  obtain ⟨-, hrun⟩ := h
  have hadd : ∀ {host port s₁}, (addNewNeighbour env host port).exec s₁ = .ok ((), s') →
      ∃ hello, s' = State.withAddresses env hello 0 ((env.getaddrinfo host port).getD []) s₁ := by
    intro host port s₁ hrun
    rw [exec_addNewNeighbour] at hrun
    cases hrun
    exact ⟨_, rfl⟩
  cases call with
  | addNewNeighbour host port => exact ⟨s, .refl s, .inl (hadd hrun)⟩
  | processNeighbour b => exact ⟨s, .refl s, .inl (hadd hrun)⟩
  | processHello b client =>
    have hsame := SameNbrs.answered s env b client
    have hcur : (s.answered env b client).cur = s.cur := hsame.nbrs .cur
    have hpot : (s.answered env b client).pot = s.pot := hsame.nbrs .pot
    replace hrun := admitPeer_cases ((exec_processHello env b client s).symm.trans hrun)
    rw [hcur, hpot] at hrun
    refine ⟨s.answered env b client, hsame, ?_⟩
    unfold NbrCall.resolved
    dsimp only
    rcases hrun with ⟨hknown, hsame'⟩ | ⟨hnew, hknown, moved, hmove⟩ | ⟨hnew, hnew', hrun⟩
    · rw [if_neg fun h => hknown (Option.isNone_iff_eq_none.mp h.1)]
      exact .inl ⟨[], hsame'⟩
    · rw [if_neg fun h => hknown (Option.isNone_iff_eq_none.mp h.2)]
      exact .inr ⟨rfl, .pot, _, moved, hmove⟩
    · rw [if_pos ⟨Option.isNone_iff_eq_none.mpr hnew, Option.isNone_iff_eq_none.mpr hnew'⟩]
      exact .inl (hadd hrun)
  | processGoAway b pair =>
    obtain ⟨e, s₁, moved, -, hempty, hmove⟩ := processGoAway_eq_ok (b := b) hrun
    exact ⟨s₁, .emptyPending hempty, .inr ⟨rfl, .cur, _, moved, hmove⟩⟩
  | transfer w key =>
    obtain ⟨moved, s₁, hrun, hret⟩ := Prog.exec_bind_eq_ok hrun
    cases hret
    rw [Prog.exec_call] at hrun
    exact ⟨s, .refl s, .inr ⟨rfl, w, key, moved, hrun⟩⟩

/-! ## The condition -/

/-- The keys stay those of the addresses. -/
theorem NbrStep.keyed {host : Env} {s s' : State} {call : Env × NbrCall}
    (h : NbrStep host s call s') (hs : Keyed host s) : Keyed host s' := by
  obtain ⟨env, call⟩ := call
  obtain ⟨s₁, hsame, ⟨hello, rfl⟩ | ⟨-, w, key, moved, hrun⟩⟩ := h.cases
  · exact (hsame.keyed hs).withAddresses h.1 hello 0 _
  · obtain ⟨e, he, rfl⟩ := (hsame.keyed hs).transfer_eq_ok h.1 hrun
    exact (hsame.keyed hs).transferred he

/-- The key that a transfer binds has left the other map. -/
theorem OneStatus.transferred {s : State} (h : OneStatus s) (w : Nbrs) (key : List Char)
    (e : ℕ) : OneStatus (s.transferred w key e) := by
  rw [oneStatus_iff_other] at h ⊢
  intro w' key' hbound
  by_cases hw : w' = w
  · subst hw
    rw [nbrs_transferred] at hbound
    rw [nbrs_other_transferred]
    split at hbound
    · cases hbound
    · next hkey =>
      rw [if_neg hkey]
      exact h w' key' hbound
  · obtain rfl := Nbrs.eq_other_of_ne hw
    rw [nbrs_other_transferred] at hbound
    rw [w.other_other, nbrs_transferred]
    split at hbound
    · next hkey => exact if_pos hkey
    · next hkey =>
      rw [if_neg hkey]
      exact w.other_other ▸ h w.other key' hbound

/-- **Adding addresses** keeps to one status exactly under the condition. -/
theorem oneStatus_withAddresses_iff {s : State} (h : OneStatus s) (env : Env)
    (hello : List UInt8) (ps : List SockaddrIn6) :
    OneStatus (State.withAddresses env hello 0 ps s)
      ↔ (∀ i p, ps[i]? = some p →
          mapGet (s.nbrs (env.outcome i).other) (addressKey env p) = none)
        ∧ ∀ i j p q, ps[i]? = some p → ps[j]? = some q →
          addressKey env p = addressKey env q → env.outcome i = env.outcome j := by
  have hbound := isSome_withAddresses env hello 0 ps s
  simp only [Nat.zero_add] at hbound
  rw [oneStatus_iff_other] at h ⊢
  simp only [← Option.not_isSome_iff_eq_none] at h ⊢
  constructor
  · intro hone
    -- The key of each address is bound in the map the address goes to.
    have hnew : ∀ i p, ps[i]? = some p →
        (mapGet ((State.withAddresses env hello 0 ps s).nbrs (env.outcome i))
          (addressKey env p)).isSome := fun i p hp =>
      (hbound _ _).mpr (.inr ⟨i, p, hp, rfl, rfl⟩)
    refine ⟨fun i p hp hold => ?_, fun i j p q hp hq hkey => ?_⟩
    · exact hone _ _ (hnew i p hp) ((hbound _ _).mpr (.inl hold))
    · by_contra hne
      have hother : env.outcome j = (env.outcome i).other :=
        Nbrs.eq_other_of_ne fun h => hne h.symm
      refine hone _ _ (hnew i p hp) ?_
      rw [hkey, ← hother]
      exact hnew j q hq
  · rintro ⟨hfree, hagree⟩ w key hw hother
    rcases (hbound _ _).mp hw with hold | ⟨i, p, hp, rfl, rfl⟩ <;>
      rcases (hbound _ _).mp hother with hold' | ⟨j, q, hq, hj, hkey⟩
    · exact h w key hold hold'
    · refine hfree j q hq ?_
      rwa [hj, hkey, w.other_other]
    · exact hfree i p hp hold'
    · exact Nbrs.other_ne _ (hj.symm.trans (hagree i j p q hp hq hkey.symm).symm)

/-- A call keeps to one status exactly under the condition. -/
theorem NbrStep.oneStatus_iff {host : Env} {s s' : State} {call : Env × NbrCall}
    (h : NbrStep host s call s') (hkeyed : Keyed host s) (hs : OneStatus s) :
    OneStatus s' ↔ KeepsStatus s call := by
  obtain ⟨env, call⟩ := call
  obtain ⟨s₁, hsame, ⟨hello, rfl⟩ | ⟨hresolved, w, key, moved, hrun⟩⟩ := h.cases
  · rw [oneStatus_withAddresses_iff (hsame.oneStatus_iff.mpr hs)]
    unfold KeepsStatus
    simp only [hsame.nbrs]
  · have hkeeps : KeepsStatus s (env, call) := by
      unfold KeepsStatus
      dsimp only
      rw [hresolved]
      exact ⟨fun _ _ => nofun, fun _ _ _ _ => nofun⟩
    obtain ⟨e, -, rfl⟩ := (hsame.keyed hkeyed).transfer_eq_ok h.1 hrun
    exact iff_of_true ((hsame.oneStatus_iff.mpr hs).transferred w key e) hkeeps

/-! ## Runs -/

/-- **In a run of calls from the empty maps no key is ever bound in both maps**
exactly when each call, in the state it finds, meets the condition. -/
theorem oneStatus_iff_keepsStatus {host : Env} {junk : ℕ → Option ℕ × Option ℕ} {s' : State}
    {calls : List (State × Env × NbrCall)}
    (h : Run (NbrStep host) (State.init junk) calls s') :
    ((∀ x ∈ calls, OneStatus x.1) ∧ OneStatus s') ↔ ∀ x ∈ calls, KeepsStatus x.1 x.2 :=
  h.forall_iff (fun _ _ _ hstep _ hs => hstep.keyed hs)
    (fun _ _ _ hstep hkeyed hs => hstep.oneStatus_iff hkeyed hs) (keyed_init host junk)
    (fun _ => .inl rfl)

/-- A host with one address, `::1` and the port 1212 in network order, to which
every send does as `ok` says. -/
def oneAddressEnv (ok : Bool) : Env :=
  { shortEnv with
    getaddrinfo := fun _ _ => some [⟨shortIp 1, 48132⟩]
    sendOk := fun _ => ok }

/-- The state when `add_new_neighbour` of this host has returned. -/
def metOnce (ok : Bool) (s : State) : State :=
  State.withAddresses (oneAddressEnv ok) (shortHello (oneAddressEnv ok) s) 0
    [⟨shortIp 1, 48132⟩] s

theorem nbrStep_metOnce (ok : Bool) (s : State) :
    NbrStep shortEnv s (oneAddressEnv ok, .addNewNeighbour [] []) (metOnce ok s) :=
  ⟨⟨rfl, rfl⟩, exec_addNewNeighbour (oneAddressEnv ok) [] [] s⟩

/-- A host with one address, `::1` and the port 257, which reads the same in both
orders, that no send reaches. -/
def unreachedEnv : Env :=
  { shortEnv with
    getaddrinfo := fun _ _ => some [⟨shortIp 1, 257⟩]
    sendOk := fun _ => false }

/-- A peer is met twice: the Hello to it does not go through, and then a Hello comes
from it. It was a potential neighbour, and is a current one. -/
theorem oneStatus_iff_keepsStatus_promoted : ∃ s₁ s₂,
    NbrStep shortEnv (State.init fun _ => (none, none)) (unreachedEnv, .addNewNeighbour [] []) s₁
      ∧ NbrStep shortEnv s₁ (shortEnv, .processHello ⟨true, 1, 7⟩ ⟨shortIp 1, 257⟩) s₂
      ∧ s₁.pot.keys = [newNeighbourKey [':', ':', '1'] 257]
      ∧ s₂.cur.keys = [newNeighbourKey [':', ':', '1'] 257] ∧ OneStatus s₂ := by
  obtain ⟨s₁, s₂, hmeet, hhello, hpot, hcur, hnone⟩ : ∃ s₁ s₂,
      ((NbrCall.addNewNeighbour [] []).code unreachedEnv).exec
          (State.init fun _ => (none, none)) = .ok ((), s₁)
        ∧ ((NbrCall.processHello ⟨true, 1, 7⟩ ⟨shortIp 1, 257⟩).code shortEnv).exec s₁
          = .ok ((), s₂)
        ∧ s₁.pot.keys = [newNeighbourKey [':', ':', '1'] 257]
        ∧ s₂.cur.keys = [newNeighbourKey [':', ':', '1'] 257]
        ∧ NbrCall.resolved shortEnv s₁ (.processHello ⟨true, 1, 7⟩ ⟨shortIp 1, 257⟩) = [] :=
    ⟨_, _, rfl, rfl, by decide, by decide, by decide⟩
  have hmeet' : NbrStep shortEnv _ (unreachedEnv, _) s₁ := ⟨⟨rfl, rfl⟩, hmeet⟩
  have hhello' : NbrStep shortEnv s₁ (shortEnv, _) s₂ := ⟨⟨rfl, rfl⟩, hhello⟩
  refine ⟨s₁, s₂, hmeet', hhello', hpot, hcur,
    ((oneStatus_iff_keepsStatus (.snoc (.snoc .nil hmeet') hhello')).mpr fun x hx => ?_).2⟩
  rcases List.mem_cons.mp hx with rfl | hx
  · exact ⟨fun i p _ => mapGet_mapInit _, fun i j p q _ _ _ => rfl⟩
  · obtain rfl := List.mem_singleton.mp hx
    unfold KeepsStatus
    dsimp only
    rw [hnone]
    exact ⟨fun i p => nofun, fun i j p q => nofun⟩

/-- The host is met twice, and the first Hello does not go through. -/
theorem not_oneStatus_metTwice :
    ¬ ∀ (host : Env) (junk : ℕ → Option ℕ × Option ℕ) (calls : List (State × Env × NbrCall))
        (s' : State), Run (NbrStep host) (State.init junk) calls s' → OneStatus s' := by
  intro hall
  have h := hall shortEnv (fun _ => (none, none)) _ _
    (.snoc (.snoc .nil (nbrStep_metOnce false (State.init fun _ => (none, none))))
      (nbrStep_metOnce true _))
  rcases h (newNeighbourKey [':', ':', '1'] 1212) with h | h
  · exact absurd h (by decide)
  · exact absurd h (by decide)

end Miaouchat
