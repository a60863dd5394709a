import Mathlib.Data.List.AList
import Rustice.Transition

/-!
# The Registry of Running Queries

`RunningQueriesRegistry` keeps two maps: the running queries by query id, and for a request id the
query id it was submitted as.
-/

namespace Rustice

open List AList

abbrev Uuid := ℕ

abbrev QueryId := Uuid

inductive ExecutionStatus where
  | running | success | fail | incident
  deriving DecidableEq

inductive ExecutorError where
  | concurrencyLimit
  | missingDataFusionSession (id : String)
  | queryIsntRunning (queryId : QueryId)
  | queryByRequestIdIsntRunning (requestId : Uuid)
  | noJoinHandle (queryId : QueryId)
  | queryExecution (queryId : QueryId) (source : ExecutorError)
  deriving DecidableEq

structure RunningQuery where
  queryId : QueryId
  requestId : Option Uuid := none
  resultHandle : Option QueryId := none
  cancelled : Bool := false
  status : Option ExecutionStatus := none
  deriving DecidableEq

inductive RunningQueryId where
  | byQueryId (queryId : QueryId)
  | byRequestId (requestId : Uuid) (sqlText : String)

structure RunningQueriesRegistry where
  queries : AList fun _ : QueryId => RunningQuery
  requestsIds : AList fun _ : Uuid => QueryId

namespace RunningQueriesRegistry

def new : RunningQueriesRegistry := ⟨∅, ∅⟩

variable (reg : RunningQueriesRegistry)

def insertRequestId (runningQuery : RunningQuery) : RunningQueriesRegistry :=
  match runningQuery.requestId with
  | some requestId =>
    { reg with requestsIds := reg.requestsIds.insert requestId runningQuery.queryId }
  | none => reg

def insertQuery (runningQuery : RunningQuery) : RunningQueriesRegistry :=
  { reg with queries := reg.queries.insert runningQuery.queryId runningQuery }

def add (runningQuery : RunningQuery) : RunningQueriesRegistry :=
  (reg.insertRequestId runningQuery).insertQuery runningQuery

def remove (queryId : QueryId) :
    Except ExecutorError (RunningQuery × RunningQueriesRegistry) :=
  match reg.queries.lookup queryId with
  | some runningQuery =>
    .ok (runningQuery, { reg with queries := reg.queries.erase queryId })
  | none => .error (.queryIsntRunning queryId)

/-- The shape of `abort` and of `notify_query_finished`. -/
def update (f : RunningQuery → RunningQuery) (queryId : QueryId) :
    Except ExecutorError RunningQueriesRegistry :=
  match reg.queries.lookup queryId with
  | some runningQuery =>
    .ok { reg with queries := reg.queries.insert queryId (f runningQuery) }
  | none => .error (.queryIsntRunning queryId)

def abort (queryId : QueryId) : Except ExecutorError RunningQueriesRegistry :=
  reg.update (fun runningQuery => { runningQuery with cancelled := true }) queryId

def notifyQueryFinished (queryId : QueryId) (status : ExecutionStatus) :
    Except ExecutorError RunningQueriesRegistry :=
  reg.update (fun runningQuery => { runningQuery with status := some status }) queryId

def locateQueryId : RunningQueryId → Except ExecutorError QueryId
  | .byRequestId requestId _sqlText =>
    match reg.requestsIds.lookup requestId with
    | some queryId => .ok queryId
    | none => .error (.queryByRequestIdIsntRunning requestId)
  | .byQueryId queryId => .ok queryId

def count : ℕ := reg.queries.keys.length

def orElseSame : Except ExecutorError RunningQueriesRegistry → RunningQueriesRegistry
  | .ok reg' => reg'
  | .error _ => reg

/-- The discard task of `submit`, and the last part of `wait`. -/
def discard (queryId : QueryId) : RunningQueriesRegistry :=
  reg.orElseSame ((reg.remove queryId).map Prod.snd)

variable {reg} {id : QueryId} {reg' : RunningQueriesRegistry} {f : RunningQuery → RunningQuery}
  {q : RunningQuery}

lemma queries_insertRequestId (q : RunningQuery) :
    (reg.insertRequestId q).queries = reg.queries := by
  rw [insertRequestId]
  split <;> rfl

lemma lookup_insertRequestId {r : Uuid}
    (h : (reg.insertRequestId q).requestsIds.lookup r = some id) :
    reg.requestsIds.lookup r = some id ∨ (q.requestId = some r ∧ q.queryId = id) := by
  rw [insertRequestId] at h
  split at h
  case h_1 r' hr' =>
    by_cases hr : r = r'
    · subst hr
      rw [lookup_insert] at h
      exact .inr ⟨hr', Option.some.inj h⟩
    · rw [lookup_insert_ne hr] at h
      exact .inl h
  case h_2 => exact .inl h

lemma mem_requestsIds_insertRequestId {r : Uuid} :
    r ∈ (reg.insertRequestId q).requestsIds ↔ r ∈ reg.requestsIds ∨ q.requestId = some r := by
  rw [insertRequestId]
  split
  case h_1 r' hr' => rw [mem_insert, hr', Option.some.injEq, or_comm, eq_comm]
  case h_2 hr' => simp [hr']

lemma discard_eq (id : QueryId) : (reg.discard id).requestsIds = reg.requestsIds ∧
    ∀ q, q ∈ (reg.discard id).queries ↔ q ≠ id ∧ q ∈ reg.queries := by
  rw [discard, remove]
  split
  case h_1 => exact ⟨rfl, fun q => mem_erase⟩
  case h_2 hid =>
    refine ⟨rfl, fun q => ⟨fun hq => ⟨?_, hq⟩, And.right⟩⟩
    rintro rfl
    exact lookup_eq_none.mp hid hq

lemma update_eq_ok (h : reg.update f id = .ok reg') :
    reg'.requestsIds = reg.requestsIds ∧ ∀ q, q ∈ reg'.queries ↔ q ∈ reg.queries := by
  rw [update] at h
  split at h
  case h_1 rq hr =>
    obtain rfl := Except.ok.inj h
    have hid : id ∈ reg.queries := lookup_isSome.mp (by rw [hr]; rfl)
    refine ⟨rfl, fun q => mem_insert _ |>.trans ⟨?_, .inr⟩⟩
    rintro (rfl | hq)
    exacts [hid, hq]
  case h_2 => cases h

lemma remove_eq_ok (h : reg.remove id = .ok (q, reg')) : reg' = reg.discard id := by
  rw [discard, h]
  rfl

lemma count_insertRequestId (q : RunningQuery) : (reg.insertRequestId q).count = reg.count := by
  rw [count, queries_insertRequestId, count]

lemma count_insertQuery_le (q : RunningQuery) : (reg.insertQuery q).count ≤ reg.count + 1 := by
  rw [count, insertQuery, keys_insert, length_cons, count]
  exact Nat.succ_le_succ (length_erase_le ..)

lemma count_discard_le (id : QueryId) : (reg.discard id).count ≤ reg.count := by
  rw [discard, remove]
  split
  case h_1 =>
    simp only [Except.map, orElseSame, count, keys_erase]
    exact length_erase_le ..
  case h_2 => exact le_rfl

lemma count_update (h : reg.update f id = .ok reg') : reg'.count = reg.count := by
  rw [update] at h
  split at h
  case h_1 rq hr =>
    obtain rfl := Except.ok.inj h
    have hid : id ∈ reg.queries.keys :=
      AList.mem_keys.mp (lookup_isSome.mp (by rw [hr]; rfl))
    simp only [count, keys_insert, length_cons]
    exact length_erase_add_one hid
  case h_2 => cases h

end RunningQueriesRegistry

inductive RegistryOp where
  | add (runningQuery : RunningQuery)
  | remove (queryId : QueryId)
  | abort (queryId : QueryId)
  | notifyQueryFinished (queryId : QueryId) (status : ExecutionStatus)
  | discard (queryId : QueryId)

open TransitionSystem

namespace RunningQueriesRegistry

def apply (reg : RunningQueriesRegistry) : RegistryOp → RunningQueriesRegistry
  | .add runningQuery => reg.add runningQuery
  | .remove queryId => reg.orElseSame ((reg.remove queryId).map Prod.snd)
  | .abort queryId => reg.orElseSame (reg.abort queryId)
  | .notifyQueryFinished queryId status =>
    reg.orElseSame (reg.notifyQueryFinished queryId status)
  | .discard queryId => reg.discard queryId

def system : TransitionSystem RunningQueriesRegistry RegistryOp where
  init := new
  step reg op := some (reg.apply op)

variable {reg : RunningQueriesRegistry} {id : QueryId} {r : Uuid} {o : List RegistryOp}

def removes : RegistryOp → Option QueryId
  | .remove queryId => some queryId
  | .discard queryId => some queryId
  | _ => none

lemma apply_cases (reg : RunningQueriesRegistry) (op : RegistryOp) :
    (∃ rq, op = .add rq ∧ reg.apply op = reg.add rq) ∨
    (∃ id, removes op = some id ∧ reg.apply op = reg.discard id) ∨
    (removes op = none ∧ (reg.apply op).requestsIds = reg.requestsIds ∧
      ∀ q, q ∈ (reg.apply op).queries ↔ q ∈ reg.queries) := by
  have hu : ∀ f id, (reg.orElseSame (reg.update f id)).requestsIds = reg.requestsIds ∧
      ∀ q, q ∈ (reg.orElseSame (reg.update f id)).queries ↔ q ∈ reg.queries := by
    intro f id
    cases h : reg.update f id with
    | ok reg' => exact update_eq_ok h
    | error e => exact ⟨rfl, fun _ => .rfl⟩
  cases op with
  | add rq => exact .inl ⟨rq, rfl, rfl⟩
  | remove id => exact .inr (.inl ⟨id, rfl, rfl⟩)
  | abort id => exact .inr (.inr ⟨rfl, hu _ id⟩)
  | notifyQueryFinished id status => exact .inr (.inr ⟨rfl, hu _ id⟩)
  | discard id => exact .inr (.inl ⟨id, rfl, rfl⟩)

def located (reg : RunningQueriesRegistry) : List QueryId :=
  reg.requestsIds.entries.map Sigma.snd

lemma mem_located : id ∈ reg.located ↔ ∃ r, reg.requestsIds.lookup r = some id := by
  simp only [located, mem_map, ← Option.mem_def, mem_lookup_iff]
  exact ⟨fun ⟨e, he, hid⟩ => ⟨e.1, hid ▸ he⟩, fun ⟨r, hr⟩ => ⟨_, hr, rfl⟩⟩

def Live (reg : RunningQueriesRegistry) : Prop :=
  ∀ id ∈ reg.located, id ∈ reg.queries

/-- A query that a request id points at is not taken out. -/
def SparesLocated (reg : RunningQueriesRegistry) (op : RegistryOp) : Prop :=
  ∀ id ∈ removes op, id ∉ reg.located

instance (reg : RunningQueriesRegistry) (op : RegistryOp) :
    Decidable (SparesLocated reg op) :=
  inferInstanceAs (Decidable (∀ id ∈ removes op, id ∉ reg.located))

lemma Live.add (hl : reg.Live) (rq : RunningQuery) : (reg.add rq).Live := by
  intro id hid
  obtain ⟨r, hr⟩ := mem_located.mp hid
  refine (mem_insert _).mpr ?_
  rw [queries_insertRequestId]
  rcases lookup_insertRequestId hr with ho | ⟨-, rfl⟩
  · exact .inr (hl id (mem_located.mpr ⟨r, ho⟩))
  · exact .inl rfl

lemma live_discard_iff (hliv : reg.Live) (id : QueryId) :
    (reg.discard id).Live ↔ id ∉ reg.located := by
  obtain ⟨hi, hque⟩ := reg.discard_eq id
  have hl : (reg.discard id).located = reg.located := by rw [located, hi, located]
  simp only [Live, hl, hque]
  constructor
  · exact fun h hid => (h id hid).1 rfl
  · intro hid q hq
    exact ⟨fun hqd => hid (hqd ▸ hq), hliv q hq⟩

lemma live_apply_iff (hl : reg.Live) (op : RegistryOp) :
    (reg.apply op).Live ↔ SparesLocated reg op := by
  rcases reg.apply_cases op with ⟨rq, rfl, ha⟩ | ⟨id, hid, hd⟩ | ⟨hid, hi, hq⟩
  · rw [ha]
    exact iff_of_true (hl.add rq) fun _ h => nomatch h
  · rw [hd, live_discard_iff hl, SparesLocated, hid]
    exact ⟨fun h _ hi' => Option.mem_some.mp hi' ▸ h, fun h => h id rfl⟩
  · rw [SparesLocated, hid, Live, located, hi]
    simp only [hq]
    exact iff_of_true hl fun _ h => nomatch h

def RegisteredAs (ops : List RegistryOp) (r : Uuid) (id : QueryId) : Prop :=
  ∃ rq, RegistryOp.add rq ∈ ops ∧ rq.queryId = id ∧ rq.requestId = some r

lemma RegisteredAs.append
    (h : RegisteredAs o r id) (o' : List RegistryOp) : RegisteredAs (o ++ o') r id := by
  obtain ⟨rq, hrq, hid, hr⟩ := h
  exact ⟨rq, mem_append_left _ hrq, hid, hr⟩

lemma registered_of_lookup (hrun : system.Run anyStep o reg)
    (h : reg.requestsIds.lookup r = some id) : RegisteredAs o r id := by
  refine hrun.invariant (fun o reg => ∀ r id, reg.requestsIds.lookup r = some id →
    RegisteredAs o r id) ?_ ?_ r id h
  · intro r id h
    cases h
  · intro o reg reg' op ih _ hs r id h
    obtain rfl := Option.some.inj hs
    rcases reg.apply_cases op with ⟨rq, rfl, ha⟩ | ⟨id', -, hd⟩ | ⟨-, hi, -⟩
    · rw [ha] at h
      rcases lookup_insertRequestId h with h | ⟨hr, hid⟩
      · exact (ih r id h).append _
      · exact ⟨rq, mem_append_right _ mem_cons_self, hid, hr⟩
    · rw [hd, (reg.discard_eq id').1] at h
      exact (ih r id h).append _
    · rw [hi] at h
      exact (ih r id h).append _

lemma locateQueryId_eq_ok {st : String} :
    reg.locateQueryId (.byRequestId r st) = .ok id ↔ reg.requestsIds.lookup r = some id := by
  rw [locateQueryId]
  cases reg.requestsIds.lookup r with
  | some id' => exact ⟨fun h => congrArg some (Except.ok.inj h),
      fun h => congrArg Except.ok (Option.some.inj h)⟩
  | none => exact ⟨nofun, nofun⟩

/-! ### Main result -/

/-- **The index by request id is live throughout a run exactly when no step of the run takes
out a query that a request id points at.** -/
theorem locateQueryId_live_iff {ops : List RegistryOp}
    (hrun : system.Run anyStep ops reg) :
    (∀ pre reg', pre <+: ops → system.Run anyStep pre reg' →
      ∀ r sqlText id, reg'.locateQueryId (.byRequestId r sqlText) = .ok id →
        id ∈ reg'.queries ∧ RegisteredAs pre r id) ↔
      system.Run SparesLocated ops reg := by
  have hl : (∀ pre reg', pre <+: ops → system.Run anyStep pre reg' →
      reg'.Live) ↔ system.Run SparesLocated ops reg :=
    run_iff_always (P := fun _ reg => reg.Live) (fun _ h => nomatch h)
      (fun _ h hs => Option.some.inj hs ▸ live_apply_iff h _) hrun
  rw [← hl]
  refine forall₄_congr fun pre reg' _ hp => ⟨fun h id hid => ?_, fun h r sqlText id hid => ?_⟩
  · obtain ⟨r, hr⟩ := mem_located.mp hid
    exact (h r "" id (locateQueryId_eq_ok.mpr hr)).1
  · rw [locateQueryId_eq_ok] at hid
    exact ⟨h id (mem_located.mpr ⟨r, hid⟩), registered_of_lookup hp hid⟩

theorem locateQueryId_dangles :
    ∃ reg, system.Run anyStep
        [.add { queryId := 0, requestId := some 7 }, .notifyQueryFinished 0 .success,
          .remove 0] reg ∧
      reg.locateQueryId (.byRequestId 7 "SELECT 1") = .ok 0 ∧ 0 ∉ reg.queries := by
  refine ⟨_, exec_eq_some_iff.mp rfl, rfl, ?_⟩
  exact fun h => by cases h

theorem locateQueryId_live_on_reused_request :
    ∃ reg, system.Run anyStep
        [.add { queryId := 0, requestId := some 7 }, .add { queryId := 1, requestId := some 7 },
          .discard 0] reg ∧
      ∀ pre reg', pre <+: [RegistryOp.add { queryId := 0, requestId := some 7 },
          .add { queryId := 1, requestId := some 7 }, .discard 0] →
        system.Run anyStep pre reg' →
        ∀ r sqlText id, reg'.locateQueryId (.byRequestId r sqlText) = .ok id →
          id ∈ reg'.queries ∧ RegisteredAs pre r id := by
  refine ⟨_, exec_eq_some_iff.mp rfl, ?_⟩
  exact (locateQueryId_live_iff (exec_eq_some_iff.mp rfl)).mpr
    (exec_eq_some_iff.mp rfl)

end RunningQueriesRegistry

end Rustice
