import Miaouchat.Handshake
import Miaouchat.NeighbourKeys

/-!
# Adding a host

`add_new_neighbour` goes over the addresses that a host resolves to. Each gets
the same short Hello, and an entry in the map that the outcome of its send
chooses, unless its key is bound there: by a neighbour known before, or by an
address earlier in the list. So a map binds a key that was free to the entry of
the first address that goes to it under that key (`mapGet_withAddresses`), and
a key that was bound stays bound to its entry.
-/

namespace Miaouchat

/-- **Every entry that a map binds has been allocated**, so a new entry is none
of them. -/
def Allocated (s : State) : Prop :=
  ∀ w key e, mapGet (s.nbrs w) key = some e → e < s.entryCount

theorem Keyed.allocated {host : Env} {s : State} (h : Keyed host s) : Allocated s :=
  fun w key e he => (h w key e he).1

/-- The first of the addresses that goes to the map `w` under the key, and its
index. -/
def firstFor (env : Env) (ai : List SockaddrIn6) (w : Nbrs) (key : List Char) :
    Option (SockaddrIn6 × ℕ) :=
  ai.zipIdx.find? fun x => env.outcome x.2 = w ∧ addressKey env x.1 = key

/-- **The addresses are registered**, from the state `s` to `s'`. -/
structure Registered (env : Env) (ai : List SockaddrIn6) (s s' : State) : Prop where
  /-- Each address is sent one datagram, and in order. -/
  sends : ∃ hello, s'.sent = s.sent ++ ai.map (fun p => (p, hello))
    ∧ ∀ mc, ∃ m b, dserialMsg mc (newDsbuff hello) = some (m, b)
      ∧ m.body.map Tlv.body = [.hello ⟨false, env.clientId, 0⟩]
  /-- A neighbour known before keeps its entry, with what it is to be sent. -/
  kept : ∀ w key e, mapGet (s.nbrs w) key = some e →
    mapGet (s'.nbrs w) key = some e ∧ s'.entries e = s.entries e
  /-- A key that no address goes under stays free. -/
  free : ∀ w key, mapGet (s.nbrs w) key = none → firstFor env ai w key = none →
    mapGet (s'.nbrs w) key = none
  /-- The first address that goes under a free key has an entry of its own
  there, with nothing to send. -/
  added : ∀ w key p i, mapGet (s.nbrs w) key = none →
    firstFor env ai w key = some (p, i) → ∃ junk,
      mapGet (s'.nbrs w) key = some (s.entryCount + i)
        ∧ s'.entries (s.entryCount + i) = some ⟨p, 1024, newDllist .msg junk⟩

/-! ## The rounds -/

/-- **The bindings after the rounds**: those bound before, and for a free key
the entry of the first address that goes to it. -/
theorem mapGet_withAddresses (env : Env) (hello : List UInt8) (i : ℕ)
    (ps : List SockaddrIn6) (s : State) (w : Nbrs) (key : List Char) :
    mapGet ((State.withAddresses env hello i ps s).nbrs w) key
      = (mapGet (s.nbrs w) key).or
          (((ps.zipIdx i).find? fun x => env.outcome x.2 = w ∧ addressKey env x.1 = key).map
            fun x => s.entryCount + (x.2 - i)) := by
  induction ps generalizing i s with
  | nil => simp [State.withAddresses]
  | cons p ps ih =>
    -- The indices of the later addresses are past `i`, and the count is one more.
    have hlater : ∀ x ∈ ps.zipIdx (i + 1), i + 1 ≤ x.2 := fun x hx =>
      (List.mem_zipIdx hx).1
    rw [State.withAddresses, ih, nbrs_withAddress, entryCount_withAddress, List.zipIdx_cons,
      List.find?_cons]
    by_cases hp : env.outcome i = w ∧ addressKey env p = key
    · obtain ⟨rfl, rfl⟩ := hp
      rw [if_pos ⟨rfl, rfl⟩]
      cases mapGet (s.nbrs (env.outcome i)) (addressKey env p) <;> simp
    · have hp' : ¬ (w = env.outcome i ∧ key = addressKey env p) :=
        fun h => hp ⟨h.1.symm, h.2.symm⟩
      rw [if_neg hp', decide_eq_false hp]
      congr 1
      refine Option.map_congr fun x hx => ?_
      have hle := hlater x (List.mem_of_find?_eq_some hx)
      omega

theorem entries_withAddresses_of_lt (env : Env) (hello : List UInt8) (i : ℕ)
    (ps : List SockaddrIn6) {s : State} {e : ℕ} (he : e < s.entryCount) :
    (State.withAddresses env hello i ps s).entries e = s.entries e := by
  induction ps generalizing i s with
  | nil => rfl
  | cons p ps ih =>
    have hlt : e < (s.withAddress env hello (env.outcome i) p).entryCount := by
      rw [entryCount_withAddress]
      omega
    rw [State.withAddresses, ih _ hlt, entries_withAddress, Function.update_of_ne he.ne]

/-- Each address has an entry of its own. -/
theorem entries_withAddresses (env : Env) (hello : List UInt8) (i j : ℕ)
    {ps : List SockaddrIn6} {s : State} {p : SockaddrIn6} (hp : ps[j]? = some p) :
    (State.withAddresses env hello i ps s).entries (s.entryCount + j)
      = some ⟨p, 1024, newDllist .msg (env.junk (s.entryCount + j))⟩ := by
  induction ps generalizing i j s with
  | nil => cases hp
  | cons q ps ih =>
    have hcount := entryCount_withAddress s env hello (env.outcome i) q
    rw [State.withAddresses]
    cases j with
    | zero =>
      cases hp
      show (State.withAddresses _ _ _ _ _).entries s.entryCount
        = some ⟨p, 1024, newDllist .msg (env.junk s.entryCount)⟩
      rw [entries_withAddresses_of_lt _ _ _ _ (by omega), entries_withAddress,
        Function.update_self]
    | succ j =>
      have h := ih (i + 1) j hp (s := s.withAddress env hello (env.outcome i) q)
      rwa [hcount, Nat.add_assoc, Nat.add_comm 1 j] at h

/-! ## The call -/

/-- The Hello of `add_new_neighbour` is decoded as a short one with the id of
the client. -/
theorem dserialMsg_shortHello (env : Env) (s : State) (mc : Machine) :
    ∃ m b, dserialMsg mc (newDsbuff (shortHello env s)) = some (m, b)
      ∧ m.body.map Tlv.body = [.hello ⟨false, env.clientId, 0⟩] := by
  obtain ⟨b, hb⟩ := dserialMsg_bytesOf_hello env mc s false env.clientId 0
  exact ⟨_, b, hb, rfl⟩

theorem registered_withAddresses (env : Env) (ai : List SockaddrIn6) {s : State}
    (h : Allocated s) :
    Registered env ai s (State.withAddresses env (shortHello env s) 0 ai s) where
  sends := ⟨_, State.sent_withAddresses .., dserialMsg_shortHello env s⟩
  kept w key e he := by
    rw [mapGet_withAddresses, he, entries_withAddresses_of_lt _ _ _ _ (h w key e he)]
    exact ⟨rfl, rfl⟩
  free w key hfree hfirst := by
    unfold firstFor at hfirst
    rw [mapGet_withAddresses, hfree, hfirst]
    rfl
  added w key p i hfree hfirst := by
    have hat : ai[i]? = some p :=
      List.mem_zipIdx_iff_getElem?.mp (List.mem_of_find?_eq_some hfirst)
    unfold firstFor at hfirst
    rw [mapGet_withAddresses, hfree, hfirst]
    exact ⟨_, rfl, entries_withAddresses env _ 0 i hat⟩

/-- **Adding a host registers each of its addresses once**, and nothing where
the host does not resolve. -/
theorem addNewNeighbour_registered (env : Env) (host port : List Char) {s : State}
    (h : Allocated s) :
    ∃ s', (addNewNeighbour env host port).exec s = .ok ((), s')
      ∧ (env.getaddrinfo host port = none → s' = s)
      ∧ ∀ ai, env.getaddrinfo host port = some ai → Registered env ai s s' := by
  refine ⟨_, exec_addNewNeighbour env host port s, fun hnone => ?_, fun ai hai => ?_⟩
  · rw [hnone]
    rfl
  · rw [hai]
    exact registered_withAddresses env ai h

/-- A host with an address known before, and a new one that is listed twice. -/
def repeatingEnv : Env :=
  { shortEnv with
    getaddrinfo := fun _ _ => some [⟨shortIp 1, 257⟩, ⟨shortIp 2, 257⟩, ⟨shortIp 2, 257⟩] }

theorem addNewNeighbour_registered_repeating :
    ∃ s', (addNewNeighbour repeatingEnv [] []).exec (oneNeighbour 257) = .ok ((), s')
      ∧ (repeatingEnv.getaddrinfo [] [] = none → s' = oneNeighbour 257)
      ∧ ∀ ai, repeatingEnv.getaddrinfo [] [] = some ai →
          Registered repeatingEnv ai (oneNeighbour 257) s' :=
  addNewNeighbour_registered repeatingEnv [] []
    ((keyed_init shortEnv _).withAddress ⟨rfl, rfl⟩ [] .cur ⟨shortIp 1, 257⟩).allocated

end Miaouchat
