import Rustice.StringMap
import Rustice.Transition

/-!
# The Session Map

`create_session` looks its id up in `df_sessions` under the read lock and returns the session it
finds.
-/

namespace Rustice

open List Option

structure UserSession (V : Type) where
  sessionId : String
  expiry : ℤ
  sessionParams : V
  deriving DecidableEq

def sessionInactivityExpirationSeconds : ℤ := 4 * 60 * 60

inductive SessionProcess (V : Type) where
  | building (sessionId : String)
  | inserting (session : UserSession V)
  deriving DecidableEq

inductive SessionEvent where
  | returned (sessionId : String) (address : ℕ)
  | removed (sessionId : String)

def returnedSince (sessionId : String) : List SessionEvent → List ℕ
  | [] => []
  | .returned id address :: history =>
    if id = sessionId then address :: returnedSince sessionId history
    else returnedSince sessionId history
  | .removed id :: history =>
    if id = sessionId then [] else returnedSince sessionId history

structure SessionsState (V : Type) where
  heap : List (UserSession V)
  dfSessions : AList fun _ : String => ℕ
  processes : List (SessionProcess V)
  history : List SessionEvent

inductive SessionAction (V : Type) where
  | createSession (sessionId : String)
  | build (sessionId : String) (now : ℤ) (sessionParams : Option V)
  | insert (session : UserSession V)
  | drop (p : SessionProcess V)
  | updateSessionExpiry (sessionId : String) (now : ℤ)
  | deleteSession (sessionId : String)
  | deleteExpiredSessions (now : ℤ) (runningQueries : ℕ)
  | setSessionParams (address : ℕ) (sessionParams : V)

open TransitionSystem

namespace SessionsState

variable {V : Type}

def init : SessionsState V := ⟨[], ∅, [], []⟩

variable (s : SessionsState V)

def sessionParams? (address : ℕ) : Option V :=
  s.heap[address]?.map UserSession.sessionParams

def setSessionParams (address : ℕ) (sessionParams : V) : SessionsState V :=
  { s with heap := s.heap.modify address fun session => { session with sessionParams } }

def evicted (keep : String → ℕ → Bool) : List String :=
  (s.dfSessions.entries.filter fun e => !keep e.1 e.2).map Sigma.fst

def evict (keep : String → ℕ → Bool) : SessionsState V :=
  { s with
    dfSessions := retain keep s.dfSessions
    history := (s.evicted keep).map .removed ++ s.history }

def keepSession (now : ℤ) (runningQueries : ℕ) (address : ℕ) : Bool :=
  match s.heap[address]? with
  | some session =>
    if session.expiry ≤ now then
      if runningQueries = 0 then false else true
    else true
  | none => true

variable [DecidableEq V]

def inserted (session : UserSession V) : SessionsState V where
  heap := s.heap ++ [session]
  dfSessions := s.dfSessions.insert session.sessionId s.heap.length
  processes := s.processes.erase (.inserting session)
  history := .returned session.sessionId s.heap.length :: s.history

def step : SessionAction V → Option (SessionsState V)
  | .createSession sessionId =>
    match s.dfSessions.lookup sessionId with
    | some address =>
      some { s with history := .returned sessionId address :: s.history }
    | none => some { s with processes := .building sessionId :: s.processes }
  | .build sessionId now sessionParams =>
    if .building sessionId ∈ s.processes then
      let processes := s.processes.erase (.building sessionId)
      match sessionParams with
      | some sessionParams =>
        let expiry := now + sessionInactivityExpirationSeconds
        some { s with processes := .inserting ⟨sessionId, expiry, sessionParams⟩ :: processes }
      | none => some { s with processes := processes }
    else none
  | .insert session =>
    if .inserting session ∈ s.processes then some (s.inserted session) else none
  | .drop p => if p ∈ s.processes then some { s with processes := s.processes.erase p } else none
  | .updateSessionExpiry sessionId now =>
    match s.dfSessions.lookup sessionId with
    | some address =>
      let expiry := now + sessionInactivityExpirationSeconds
      some { s with heap := s.heap.modify address fun session => { session with expiry } }
    | none => some s
  | .deleteSession sessionId => some (s.evict fun id _ => id ≠ sessionId)
  | .deleteExpiredSessions now runningQueries =>
    some (s.evict fun _ address => s.keepSession now runningQueries address)
  | .setSessionParams address sessionParams => some (s.setSessionParams address sessionParams)

def system : TransitionSystem (SessionsState V) (SessionAction V) where
  init := init
  step s a := s.step a

lemma returnedSince_returned (id id' : String) (ad : ℕ) (history : List SessionEvent) :
    returnedSince id (.returned id' ad :: history) =
      if id' = id then ad :: returnedSince id history else returnedSince id history := rfl

lemma returnedSince_removed (id : String) (i : List String) (history : List SessionEvent) :
    returnedSince id (i.map .removed ++ history) =
      if id ∈ i then [] else returnedSince id history := by
  induction i with
  | nil => rfl
  | cons id' i ih =>
    rw [map_cons, cons_append, returnedSince, ih]
    by_cases hid : id' = id
    · simp [hid]
    · simp [hid, Ne.symm hid]

variable {s} {t : SessionsState V} {a : SessionAction V} {as : List (SessionAction V)} {id : String}

omit [DecidableEq V] in
lemma mem_evicted {k : String → ℕ → Bool} :
    id ∈ s.evicted k ↔ ∃ ad, s.dfSessions.lookup id = some ad ∧ k id ad = false := by
  simp only [evicted, List.mem_map, mem_filter, Bool.not_eq_true',
    ← mem_def, AList.mem_lookup_iff]
  constructor
  · rintro ⟨⟨id, ad⟩, he, rfl⟩
    exact ⟨ad, he⟩
  · rintro ⟨ad, he⟩
    exact ⟨⟨id, ad⟩, he, rfl⟩

omit [DecidableEq V] in
lemma returnedSince_evict (k : String → ℕ → Bool) (id : String) :
    returnedSince id (s.evict k).history =
      if id ∈ s.evicted k then [] else returnedSince id s.history :=
  returnedSince_removed id _ _

inductive Step (s : SessionsState V) : SessionAction V → SessionsState V → Prop where
  | hit {id : String} {address : ℕ} (h : s.dfSessions.lookup id = some address) :
      Step s (.createSession id) { s with history := .returned id address :: s.history }
  | begin {id : String} (h : s.dfSessions.lookup id = none) :
      Step s (.createSession id) { s with processes := .building id :: s.processes }
  | build {id : String} {now : ℤ} {params : V} {session : UserSession V}
      (hp : .building id ∈ s.processes) (hid : session.sessionId = id) :
      Step s (.build id now (some params))
        { s with processes := .inserting session :: s.processes.erase (.building id) }
  | insert {session : UserSession V} (hp : .inserting session ∈ s.processes) :
      Step s (.insert session) (s.inserted session)
  | leave {a : SessionAction V} {p : SessionProcess V} (ha : ∀ session, a ≠ .insert session)
      (hp : p ∈ s.processes) : Step s a { s with processes := s.processes.erase p }
  | evict {a : SessionAction V} (ha : ∀ session, a ≠ .insert session)
      (keep : String → ℕ → Bool) : Step s a (s.evict keep)
  | write {a : SessionAction V} {heap : List (UserSession V)}
      (ha : ∀ session, a ≠ .insert session) (hheap : heap.length = s.heap.length) :
      Step s a { s with heap }

lemma step_of_eq_some (h : s.step a = some t) : Step s a t := by
  cases a with
  | createSession id =>
    simp only [step] at h
    split at h <;> obtain rfl := some.inj h
    case h_1 ad hid => exact .hit hid
    case h_2 hid => exact .begin hid
  | build id n ps =>
    simp only [step] at h
    split at h
    case isTrue hp =>
      cases ps <;> obtain rfl := some.inj h
      exacts [.leave (fun _ heq => by cases heq) hp, .build hp rfl]
    case isFalse => cases h
  | insert session =>
    simp only [step] at h
    split at h
    case isTrue hp =>
      obtain rfl := some.inj h
      exact .insert hp
    case isFalse => cases h
  | drop p =>
    simp only [step] at h
    split at h
    case isTrue hp =>
      obtain rfl := some.inj h
      exact .leave (fun _ heq => by cases heq) hp
    case isFalse => cases h
  | updateSessionExpiry id n =>
    simp only [step] at h
    split at h <;> obtain rfl := some.inj h
    exacts [.write (fun _ heq => by cases heq) (length_modify ..),
      .write (fun _ heq => by cases heq) rfl]
  | deleteSession id =>
    obtain rfl := some.inj h
    exact .evict (fun _ heq => by cases heq) _
  | deleteExpiredSessions n runningQueries =>
    obtain rfl := some.inj h
    exact .evict (fun _ heq => by cases heq) _
  | setSessionParams ad ps =>
    obtain rfl := some.inj h
    exact .write (fun _ heq => by cases heq) (length_modify ..)

/-- A step that is no insertion: it returns a stored session, takes sessions out, or
changes neither the map nor the history nor the addresses of the heap. -/
inductive Passes (s : SessionsState V) : SessionsState V → Prop where
  | hit {id : String} {address : ℕ} (h : s.dfSessions.lookup id = some address) :
      Passes s { s with history := .returned id address :: s.history }
  | evict (keep : String → ℕ → Bool) : Passes s (s.evict keep)
  | quiet {t : SessionsState V} (hmap : t.dfSessions = s.dfSessions)
      (hhistory : t.history = s.history) (hheap : t.heap.length = s.heap.length) : Passes s t

lemma step_cases (h : s.step a = some t) : (∃ ss, a = .insert ss ∧ .inserting ss ∈ s.processes ∧
    t = s.inserted ss) ∨ ((∀ ss, a ≠ .insert ss) ∧ Passes s t) := by
  cases step_of_eq_some h with
  | hit hid => exact .inr ⟨nofun, .hit hid⟩
  | begin => exact .inr ⟨nofun, .quiet rfl rfl rfl⟩
  | build => exact .inr ⟨nofun, .quiet rfl rfl rfl⟩
  | @insert ss hp => exact .inl ⟨ss, rfl, hp, rfl⟩
  | leave ha => exact .inr ⟨ha, .quiet rfl rfl rfl⟩
  | evict ha k => exact .inr ⟨ha, .evict k⟩
  | write ha hh => exact .inr ⟨ha, .quiet rfl rfl hh⟩

/-- A stored object has been returned since its id was removed. -/
structure WellFormed (s : SessionsState V) : Prop where
  stored_returned : ∀ id address, s.dfSessions.lookup id = some address →
    address ∈ returnedSince id s.history
  stored_lt : ∀ id address, s.dfSessions.lookup id = some address → address < s.heap.length

/-- What was returned for an id since its removal is what is stored. -/
def Coherent (s : SessionsState V) : Prop :=
  ∀ id, ∀ ad ∈ returnedSince id s.history, s.dfSessions.lookup id = some ad

/-- A session is inserted only if its id is still not in the map. -/
def InsertsFresh (s : SessionsState V) (a : SessionAction V) : Prop :=
  ∀ ss, a = .insert ss → s.dfSessions.lookup ss.sessionId = none

instance : (a : SessionAction V) → Decidable (InsertsFresh s a)
  | .insert session =>
    decidable_of_iff (s.dfSessions.lookup session.sessionId = none)
      ⟨fun h _ hsession => SessionAction.insert.inj hsession ▸ h, fun h => h session rfl⟩
  | .createSession _ => isTrue nofun
  | .build _ _ _ => isTrue nofun
  | .drop _ => isTrue nofun
  | .updateSessionExpiry _ _ => isTrue nofun
  | .deleteSession _ => isTrue nofun
  | .deleteExpiredSessions _ _ => isTrue nofun
  | .setSessionParams _ _ => isTrue nofun

omit [DecidableEq V] in
lemma WellFormed.passes (h : s.WellFormed) (hs : Passes s t) : t.WellFormed := by
  cases hs with
  | @hit id ad hid =>
    refine ⟨fun id' ad' h' => ?_, h.stored_lt⟩
    have ho := h.stored_returned id' ad' h'
    rw [returnedSince_returned]
    split
    exacts [mem_cons_of_mem _ ho, ho]
  | evict keep =>
    refine ⟨fun id ad h' => ?_, fun id ad h' =>
      h.stored_lt id ad (mem_lookup_retain.mp h').1⟩
    obtain ⟨hl, hk⟩ := mem_lookup_retain.mp h'
    have hn : id ∉ s.evicted keep := by
      intro hid
      obtain ⟨ad', hl', hk'⟩ := mem_evicted.mp hid
      obtain rfl := some.inj (hl.symm.trans hl')
      rw [hk] at hk'
      cases hk'
    rw [returnedSince_evict, if_neg hn]
    exact h.stored_returned id ad hl
  | quiet hmap hh hhea =>
    refine ⟨?_, ?_⟩
    · rw [hmap, hh]
      exact h.stored_returned
    · rw [hmap, hhea]
      exact h.stored_lt

lemma WellFormed.inserted (h : s.WellFormed) (ss : UserSession V) : (s.inserted ss).WellFormed := by
  have hl : (s.inserted ss).heap.length = s.heap.length + 1 :=
    length_append
  refine ⟨fun id ad h' => ?_, fun id ad h' => ?_⟩ <;>
    obtain ⟨rfl, rfl⟩ | ⟨hid, h'⟩ := lookup_insert_eq_some_iff.mp h'
  · rw [SessionsState.inserted, returnedSince_returned, if_pos rfl]
    exact mem_cons_self
  · rw [SessionsState.inserted, returnedSince_returned, if_neg (Ne.symm hid)]
    exact h.stored_returned id ad h'
  · rw [hl]
    exact Nat.lt_succ_self _
  · rw [hl]
    exact Nat.lt_succ_of_lt (h.stored_lt id ad h')

lemma wellFormed_of_run {guard} (hrun : system.Run guard as s) : s.WellFormed := by
  refine hrun.invariant (fun _ s => s.WellFormed) ⟨nofun, nofun⟩ ?_
  intro as s t a h _ hs
  rcases step_cases hs with ⟨ss, -, -, rfl⟩ | ⟨-, hp⟩
  exacts [h.inserted ss, h.passes hp]

omit [DecidableEq V] in
lemma Coherent.passes (h : s.Coherent) (hs : Passes s t) : t.Coherent := by
  cases hs with
  | @hit id ad hid =>
    intro id' ad' h'
    rw [returnedSince_returned] at h'
    split at h'
    case isTrue heq =>
      subst heq
      rcases mem_cons.mp h' with rfl | h'
      exacts [hid, h _ ad' h']
    case isFalse => exact h id' ad' h'
  | evict keep =>
    intro id ad h'
    rw [returnedSince_evict] at h'
    split at h'
    case isTrue => cases h'
    case isFalse hn =>
      have hl := h id ad h'
      refine mem_lookup_retain.mpr ⟨hl, ?_⟩
      by_contra hk
      exact hn (mem_evicted.mpr ⟨ad, hl, Bool.not_eq_true _ |>.mp hk⟩)
  | quiet hmap hh hhea =>
    rw [Coherent, hmap, hh]
    exact h

lemma coherent_inserted_iff (hwf : s.WellFormed) (h : s.Coherent) (ss : UserSession V) :
    (s.inserted ss).Coherent ↔ s.dfSessions.lookup ss.sessionId = none := by
  constructor
  · intro hi
    cases ho : s.dfSessions.lookup ss.sessionId with
    | none => rfl
    | some ad =>
      have hm : ad ∈ returnedSince ss.sessionId (s.inserted ss).history := by
        rw [SessionsState.inserted, returnedSince_returned, if_pos rfl]
        exact mem_cons_of_mem _ (hwf.stored_returned _ _ ho)
      have hn := hi _ ad hm
      rw [SessionsState.inserted, AList.lookup_insert] at hn
      have hlt := hwf.stored_lt _ _ ho
      rw [← some.inj hn] at hlt
      exact absurd hlt (lt_irrefl _)
  · intro hf id ad hm
    rw [SessionsState.inserted, returnedSince_returned] at hm
    rw [SessionsState.inserted]
    split at hm
    case isTrue heq =>
      subst heq
      rcases mem_cons.mp hm with rfl | hm
      · exact AList.lookup_insert _
      · rw [h _ ad hm] at hf
        cases hf
    case isFalse hne =>
      rw [AList.lookup_insert_ne (Ne.symm hne)]
      exact h id ad hm

lemma coherent_step_iff (hwf : s.WellFormed) (h : s.Coherent) (hst : s.step a = some t) :
    t.Coherent ↔ InsertsFresh s a := by
  rcases step_cases hst with ⟨ss, rfl, -, rfl⟩ | ⟨hne, hp⟩
  · rw [coherent_inserted_iff hwf h]
    refine ⟨fun hf ss' hs => ?_, fun hf => hf ss rfl⟩
    cases hs
    exact hf
  · exact iff_of_true (h.passes hp) fun ss ha => absurd ha (hne ss)

omit [DecidableEq V] in
lemma sessionParams?_setSessionParams {ad : ℕ} (h : ad < s.heap.length)
    (params : V) : (s.setSessionParams ad params).sessionParams? ad = some params := by
  simp only [sessionParams?, setSessionParams, getElem?_modify_eq, getElem?_eq_getElem h]
  rfl

/-! ### Main results -/

/-- **One session object per id**, exactly if no insertion finds the id in the map. -/
theorem one_session_iff {as : List (SessionAction V)}
    (hrun : system.Run anyStep as s) :
    (∀ pre u, pre <+: as → system.Run anyStep pre u →
      ∀ id, ∀ p ∈ returnedSince id u.history, ∀ q ∈ returnedSince id u.history,
        p = q ∧ u.dfSessions.lookup id = some p ∧
          ∀ params, (u.setSessionParams p params).sessionParams? q = some params) ↔
      system.Run InsertsFresh as s := by
  have hc : (∀ pre u, pre <+: as → system.Run anyStep pre u →
      u.Coherent) ↔ system.Run InsertsFresh as s :=
    run_iff_always (P := fun _ s => s.Coherent) nofun
      (fun hrun h hs => coherent_step_iff (wellFormed_of_run hrun) h hs) hrun
  rw [← hc]
  refine forall₄_congr fun pre u _ hu => ⟨fun h id p hp => (h id p hp p hp).2.1, ?_⟩
  intro h id p hp q hq
  obtain rfl : p = q := some.inj ((h id p hp).symm.trans (h id q hq))
  exact ⟨rfl, h id p hp,
    sessionParams?_setSessionParams ((wellFormed_of_run hu).stored_lt id p (h id p hp))⟩

def racingCreates : List (SessionAction ℕ) :=
  [.createSession "s", .createSession "s", .build "s" 0 (some 0), .build "s" 1 (some 0),
    .insert ⟨"s", 14400, 0⟩, .insert ⟨"s", 14401, 0⟩]

theorem racing_creates_return_two_objects :
    ∃ s, system.Run anyStep racingCreates s ∧
      returnedSince "s" s.history = [1, 0] ∧ s.dfSessions.lookup "s" = some 1 ∧
      (s.setSessionParams 0 5).sessionParams? 1 = some 0 := by
  refine ⟨_, exec_eq_some_iff.mp rfl, ?_, ?_, ?_⟩ <;> decide

def sequentialCreates : List (SessionAction ℕ) :=
  [.createSession "s", .build "s" 0 (some 0), .insert ⟨"s", 14400, 0⟩, .createSession "s"]

theorem sequential_creates_return_one_object :
    ∃ s, system.Run anyStep sequentialCreates s ∧
      ∀ pre u, pre <+: sequentialCreates → system.Run anyStep pre u →
        ∀ id, ∀ p ∈ returnedSince id u.history, ∀ q ∈ returnedSince id u.history,
          p = q ∧ u.dfSessions.lookup id = some p ∧
            ∀ params, (u.setSessionParams p params).sessionParams? q = some params := by
  refine ⟨_, exec_eq_some_iff.mp rfl, ?_⟩
  exact (one_session_iff (exec_eq_some_iff.mp rfl)).mpr
    (exec_eq_some_iff.mp rfl)

/-- The id of the session that a call is about to store. -/
def pendingId : SessionProcess V → String
  | .building id => id
  | .inserting session => session.sessionId

/-- A call starts to build a session only while no other call builds one for its id. -/
def DisjointCreates (s : SessionsState V) : SessionAction V → Prop
  | .createSession id => s.dfSessions.lookup id = none → id ∉ s.processes.map pendingId
  | _ => True

/-- An id is stored or on its way at most once. -/
def Exclusive (s : SessionsState V) : Prop :=
  (s.processes.map pendingId ++ s.dfSessions.keys).Nodup

lemma Exclusive.step (h : s.Exclusive) (hg : DisjointCreates s a) (hs : s.step a = some t) :
    t.Exclusive := by
  have he : ∀ {p}, p ∈ s.processes →
      ((p :: s.processes.erase p).map pendingId ++ s.dfSessions.keys).Nodup := fun hp =>
    (((perm_cons_erase hp).map _).append_right _).nodup_iff.mp h
  cases step_of_eq_some hs with
  | hit => exact h
  | begin hn =>
    refine nodup_cons.mpr ⟨fun hm => ?_, h⟩
    rcases mem_append.mp hm with hm | hm
    exacts [hg hn hm, AList.lookup_eq_none.mp hn hm]
  | build hp hid =>
    subst hid
    exact he hp
  | insert hp =>
    rw [Exclusive, inserted, AList.keys_insert]
    exact perm_middle.nodup_iff.mpr ((he hp).sublist ((erase_sublist.append_left _).cons_cons _))
  | leave _ hp => exact (nodup_cons.mp (he hp)).2
  | evict _ k => exact h.sublist ((filter_sublist.map _).append_left _)
  | write => exact h

lemma Exclusive.insertsFresh (h : s.Exclusive) (hs : s.step a = some t) : InsertsFresh s a := by
  rintro ss rfl
  rcases step_cases hs with ⟨_, ha, hp, -⟩ | ⟨hne, -⟩
  · cases ha
    exact AList.lookup_eq_none.mpr ((nodup_append.mp h).2.2 _ (mem_map_of_mem hp) _ · rfl)
  · exact absurd rfl (hne ss)

/-- **Calls that do not overlap** for an id return one session object, which is the stored one. -/
theorem one_session_of_disjointCreates (hrun : system.Run DisjointCreates as s) {p q : ℕ}
    (hp : p ∈ returnedSince id s.history) (hq : q ∈ returnedSince id s.history) :
    p = q ∧ s.dfSessions.lookup id = some p ∧
      ∀ params, (s.setSessionParams p params).sessionParams? q = some params := by
  have hc : s.Coherent := by
    refine (hrun.invariant (fun as s => system.Run anyStep as s ∧ s.Exclusive ∧ s.Coherent)
      ⟨.nil, nodup_nil, nofun⟩ ?_).2.2
    intro as s t a ⟨hr, he, hc⟩ hg hs
    exact ⟨.snoc hr trivial hs, he.step hg hs,
      (coherent_step_iff (wellFormed_of_run hr) hc hs).mpr (he.insertsFresh hs)⟩
  obtain rfl : p = q := some.inj ((hc id p hp).symm.trans (hc id q hq))
  exact ⟨rfl, hc id p hp,
    sessionParams?_setSessionParams ((wellFormed_of_run hrun).stored_lt id p (hc id p hp))⟩

theorem one_session_sequentialCreates :
    ∃ s, system.Run DisjointCreates sequentialCreates s ∧ s.dfSessions.lookup "s" = some 0 :=
  have hrun : system.Run DisjointCreates sequentialCreates _ :=
    .snoc (.snoc (.snoc (.snoc .nil (fun _ => not_mem_nil) rfl) trivial rfl) trivial rfl) nofun rfl
  ⟨_, hrun, (one_session_of_disjointCreates hrun (q := 0) (by decide) (by decide)).2.1⟩

end SessionsState

end Rustice
