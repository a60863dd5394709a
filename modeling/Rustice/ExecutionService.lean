import Rustice.RunningQueries

/-!
# The Execution Service as a Concurrent System

Requests, query tasks and discard tasks run on the threads of one runtime and share one
`RunningQueriesRegistry`.
-/

namespace Rustice

open List Option

structure QueryRequest where
  requestId : Uuid
  retryCount : Option ℕ
  deriving DecidableEq

structure QueryRequestBody where
  sqlText : String
  asyncExec : Option Bool
  deriving DecidableEq

structure ServiceConfig where
  maxConcurrencyLevel : ℕ
  retryDisable : Bool

inductive RequestError where
  | notImplemented
  | retryDisabled
  | execution (source : ExecutorError)
  deriving DecidableEq

structure Call where
  sessionId : String
  queryId : QueryId
  requestId : Option Uuid
  deriving DecidableEq

def Call.runningQuery (call : Call) : RunningQuery :=
  { queryId := call.queryId, requestId := call.requestId, resultHandle := some call.queryId }

inductive Process where
  | submitting (call : Call)
  | checking (call : Call)
  | adding (call : Call)
  | inserting (call : Call)
  | starting (call : Call)
  | subscribing (call : Call) (queryId : QueryId)
  | waiting (call : Call) (queryId : QueryId)
  | consuming (call : Call) (queryId : QueryId)
  | returned (call : Call) (outcome : Except RequestError QueryId)
  | executing (queryId : QueryId)
  | discarding (queryId : QueryId)
  deriving DecidableEq

namespace Process

def submission? : Process → Option Call
  | submitting call => some call
  | checking call => some call
  | adding call => some call
  | inserting call => some call
  | _ => none

def admitted : Process → Bool
  | adding _ => true
  | inserting _ => true
  | _ => false

def awaits : Process → Bool
  | submitting _ => true
  | waiting _ _ => true
  | _ => false

lemma admitted_eq_false {p : Process} (h : p.submission? = none) : p.admitted = false := by
  cases p <;> first | rfl | cases h

end Process

open Process

structure ServiceState where
  registry : RunningQueriesRegistry
  processes : List Process
  nextQueryId : QueryId
  registered : List RunningQuery

structure Environment where
  sessionExists : Bool := true
  status : ExecutionStatus := .success
  deriving DecidableEq

inductive ServiceAction where
  | request (sessionId : String) (query : QueryRequest) (body : QueryRequestBody)
  | submit (sessionId : String) (requestId : Option Uuid)
  | proceed (p : Process) (env : Environment)
  | disconnect (p : Process)
  | abort (queryId : QueryId)

open RunningQueriesRegistry TransitionSystem

namespace ServiceState

def init : ServiceState := ⟨.new, [], 0, []⟩

variable (cfg : ServiceConfig) (s : ServiceState)

def spawn (ps : List Process) : ServiceState :=
  { s with processes := ps ++ s.processes }

@[simp] lemma registry_spawn (ps : List Process) : (s.spawn ps).registry = s.registry := rfl

def handleQueryRequest (call : Call) (query : QueryRequest) (body : QueryRequestBody) :
    Process :=
  if body.asyncExec.getD false then .returned call (.error .notImplemented)
  else
    let queryIdRes := s.registry.locateQueryId (.byRequestId query.requestId body.sqlText)
    if cfg.retryDisable && 0 < query.retryCount.getD 0 then
      .returned call (.error .retryDisabled)
    else if 0 < query.retryCount.getD 0 then
      match queryIdRes with
      | .ok queryId => .subscribing call queryId
      | .error _ => .submitting call
    else .submitting call

def poll (env : Environment) : Process → Option ServiceState
  | .submitting call =>
    if env.sessionExists then some (s.spawn [.checking call])
    else
      some (s.spawn [.returned call
        (.error (.execution (.missingDataFusionSession call.sessionId)))])
  | .checking call =>
    if cfg.maxConcurrencyLevel ≤ s.registry.count then
      some (s.spawn [.returned call
        (.error (.execution (.queryExecution call.queryId .concurrencyLimit)))])
    else some (s.spawn [.adding call])
  | .adding call =>
    some ({ s with registry := s.registry.insertRequestId call.runningQuery }.spawn
      [.inserting call])
  | .inserting call =>
    some ({ s with
        registry := s.registry.insertQuery call.runningQuery
        registered := call.runningQuery :: s.registered }.spawn [.starting call])
  | .starting call =>
    some (s.spawn [.subscribing call call.queryId, .executing call.queryId])
  | .subscribing call queryId =>
    match s.registry.queries.lookup queryId with
    | some _ => some (s.spawn [.waiting call queryId])
    | none =>
      some (s.spawn [.returned call (.error (.execution (.queryIsntRunning queryId)))])
  | .waiting call queryId =>
    -- a query is only taken out once its status was sent, and the receiver keeps it
    match (s.registry.queries.lookup queryId).map RunningQuery.status with
    | some none => none
    | _ => some (s.spawn [.consuming call queryId])
  | .consuming call queryId =>
    match s.registry.remove queryId with
    | .ok (runningQuery, registry) =>
      some ({ s with registry := registry }.spawn [.returned call
        (match runningQuery.resultHandle with
        | some _ => .ok queryId
        | none => .error (.execution (.noJoinHandle queryId)))])
    | .error e => some (s.spawn [.returned call (.error (.execution e))])
  | .returned _ _ => none
  | .executing queryId =>
    match s.registry.notifyQueryFinished queryId env.status with
    | .ok registry => some ({ s with registry := registry }.spawn [.discarding queryId])
    -- the error ends the task before the discard task is spawned
    | .error _ => some s
  | .discarding queryId => some { s with registry := s.registry.discard queryId }

def without (p : Process) : ServiceState :=
  { s with processes := s.processes.erase p }

def step : ServiceAction → Option ServiceState
  | .request sessionId query body =>
    let call := ⟨sessionId, s.nextQueryId, some query.requestId⟩
    some ({ s with nextQueryId := s.nextQueryId + 1 }.spawn
      [s.handleQueryRequest cfg call query body])
  | .submit sessionId requestId =>
    some ({ s with nextQueryId := s.nextQueryId + 1 }.spawn
      [.submitting ⟨sessionId, s.nextQueryId, requestId⟩])
  | .proceed p env => if p ∈ s.processes then (s.without p).poll cfg env p else none
  | .disconnect p => if p ∈ s.processes ∧ p.awaits then some (s.without p) else none
  | .abort queryId =>
    some { s with registry := s.registry.orElseSame (s.registry.abort queryId) }

def system : TransitionSystem ServiceState ServiceAction where
  init := init
  step s a := s.step cfg a

variable {cfg s} {t : ServiceState} {p : Process} {env : Environment} {a : ServiceAction}
  {ps : List Process} (f : Process → Bool)

structure Quiet (s t : ServiceState) : Prop where
  registered_eq : t.registered = s.registered
  requestsIds_eq : t.registry.requestsIds = s.registry.requestsIds
  count_le : t.registry.count ≤ s.registry.count
  processes_eq : ∃ ps rest, t.processes = ps ++ rest ∧ rest.Sublist s.processes ∧
    ∀ p ∈ ps, p.submission? = none

lemma quiet_spawn (h : ∀ p ∈ ps, p.submission? = none) : Quiet s (s.spawn ps) :=
  ⟨rfl, rfl, le_rfl, ps, _, rfl, .refl _, h⟩

lemma quiet_registry {rg : RunningQueriesRegistry} (hi : rg.requestsIds = s.registry.requestsIds)
    (hc : rg.count ≤ s.registry.count) (h : ∀ p ∈ ps, p.submission? = none) :
    Quiet s ({ s with registry := rg }.spawn ps) :=
  ⟨rfl, hi, hc, ps, _, rfl, .refl _, h⟩

lemma quiet_of_poll (h : s.poll cfg env p = some t) (hp : p.submission? = none) : Quiet s t := by
  have ho : ∀ {p : Process}, p.submission? = none → ∀ q ∈ [p], q.submission? = none :=
    fun hp _ hq => mem_singleton.mp hq ▸ hp
  cases p with
  | submitting c => cases hp
  | checking c => cases hp
  | adding c => cases hp
  | inserting c => cases hp
  | starting c =>
    obtain rfl := some.inj h
    refine quiet_spawn fun q hq => ?_
    rcases mem_pair.mp hq with rfl | rfl <;> rfl
  | subscribing c id =>
    simp only [poll] at h
    split at h <;> obtain rfl := some.inj h <;> exact quiet_spawn (ho rfl)
  | waiting c id =>
    simp only [poll] at h
    split at h
    · cases h
    · obtain rfl := some.inj h
      exact quiet_spawn (ho rfl)
  | consuming c id =>
    simp only [poll] at h
    split at h <;> obtain rfl := some.inj h
    case h_1 rq registry hr =>
      obtain rfl := remove_eq_ok hr
      exact quiet_registry (discard_eq id).1
        (count_discard_le id) (ho rfl)
    case h_2 => exact quiet_spawn (ho rfl)
  | returned c outcome => cases h
  | executing id =>
    simp only [poll] at h
    split at h <;> obtain rfl := some.inj h
    case h_1 registry hn =>
      exact quiet_registry (update_eq_ok hn).1
        (le_of_eq (count_update hn)) (ho rfl)
    case h_2 => exact ⟨rfl, rfl, le_rfl, [], _, rfl, .refl _, nofun⟩
  | discarding id =>
    obtain rfl := some.inj h
    exact ⟨rfl, (discard_eq id).1, count_discard_le id, [], _, rfl, .refl _, nofun⟩

/-- What an access of a process can do: move a submission one place forward, or be quiet. -/
inductive Access (cfg : ServiceConfig) (s : ServiceState) : Process → ServiceState → Prop where
  | findSession (call : Call) : Access cfg s (.submitting call) (s.spawn [.checking call])
  | passCheck (call : Call) (hcount : s.registry.count < cfg.maxConcurrencyLevel) :
      Access cfg s (.checking call) (s.spawn [.adding call])
  | index (call : Call) :
      Access cfg s (.adding call)
        ({ s with registry := s.registry.insertRequestId call.runningQuery }.spawn
          [.inserting call])
  | register (call : Call) :
      Access cfg s (.inserting call)
        ({ s with
          registry := s.registry.insertQuery call.runningQuery
          registered := call.runningQuery :: s.registered }.spawn [.starting call])
  | quiet {p : Process} {t : ServiceState} (h : Quiet s t) : Access cfg s p t

lemma access_of_poll (h : s.poll cfg env p = some t) : Access cfg s p t := by
  have hr : ∀ c o, Quiet s (s.spawn [.returned c o]) :=
    fun _ _ => quiet_spawn fun _ hq => mem_singleton.mp hq ▸ rfl
  cases p with
  | submitting c =>
    simp only [poll] at h
    split at h <;> obtain rfl := some.inj h
    case isTrue => exact .findSession c
    case isFalse => exact .quiet (hr _ _)
  | checking c =>
    simp only [poll] at h
    split at h <;> obtain rfl := some.inj h
    case isTrue => exact .quiet (hr _ _)
    case isFalse hc => exact .passCheck c (not_le.mp hc)
  | adding c =>
    obtain rfl := some.inj h
    exact .index c
  | inserting c =>
    obtain rfl := some.inj h
    exact .register c
  | _ => exact .quiet (quiet_of_poll h rfl)

lemma countP_without (hp : p ∈ s.processes) :
    s.processes.countP f = (s.without p).processes.countP f + if f p then 1 else 0 := by
  rw [(perm_cons_erase hp).countP_eq f, countP_cons]
  rfl

lemma countP_spawn (ps : List Process) :
    (s.spawn ps).processes.countP f = ps.countP f + s.processes.countP f :=
  countP_append

lemma Quiet.countP_le {f : Process → Bool} (h : Quiet s t)
    (hf : ∀ p : Process, p.submission? = none → f p = false) :
    t.processes.countP f ≤ s.processes.countP f := by
  obtain ⟨ps, rest, hps, hr, hn⟩ := h.processes_eq
  have hz : ps.countP f = 0 := by
    rw [countP_eq_zero]
    exact fun p hp => by rw [hf p (hn p hp)]; exact Bool.false_ne_true
  rw [hps, countP_append, hz, Nat.zero_add]
  exact hr.countP_le

lemma handleQueryRequest_cases (c : Call) (q : QueryRequest) (b : QueryRequestBody) :
    (s.handleQueryRequest cfg c q b).submission? = none ∨
      s.handleQueryRequest cfg c q b = .submitting c ∧
        b.asyncExec.getD false = false ∧ (0 < q.retryCount.getD 0 →
          cfg.retryDisable = false ∧ q.requestId ∉ s.registry.requestsIds) := by
  simp only [handleQueryRequest]
  split
  case isTrue => exact .inl rfl
  case isFalse ha =>
    have ha' := Bool.not_eq_true _ |>.mp ha
    by_cases hr : 0 < q.retryCount.getD 0
    · cases hd : cfg.retryDisable with
      | true => exact .inl (by simp [hr, submission?])
      | false =>
        simp only [Bool.false_and, Bool.false_eq_true, if_false, if_pos hr]
        cases hl : s.registry.locateQueryId (.byRequestId q.requestId b.sqlText)
          with
        | ok id => exact .inl rfl
        | error e =>
          refine .inr ⟨rfl, ha', fun _ => ⟨trivial, fun hm => ?_⟩⟩
          obtain ⟨id, hid⟩ := isSome_iff_exists.mp (AList.lookup_isSome.mpr hm)
          rw [locateQueryId_eq_ok.mpr hid] at hl
          cases hl
    · exact .inr ⟨by simp [hr], ha', fun h => absurd h hr⟩

def Starts (cfg : ServiceConfig) (s : ServiceState) (call : Call) : ServiceAction → Prop
  | .request sessionId query body =>
    call = ⟨sessionId, s.nextQueryId, some query.requestId⟩ ∧
      body.asyncExec.getD false = false ∧ (0 < query.retryCount.getD 0 →
        cfg.retryDisable = false ∧ query.requestId ∉ s.registry.requestsIds)
  | .submit sessionId requestId => call = ⟨sessionId, s.nextQueryId, requestId⟩
  | _ => False

/-- What a step of the system can do: start a submission, let a process make its next
access, or be quiet. -/
inductive Moves (cfg : ServiceConfig) (s : ServiceState) (a : ServiceAction) :
    ServiceState → Prop where
  | start {call : Call} {t : ServiceState} (hstart : Starts cfg s call a)
      (hregistry : t.registry = s.registry) (hregistered : t.registered = s.registered)
      (hprocesses : t.processes = .submitting call :: s.processes) : Moves cfg s a t
  | access {p : Process} {env : Environment} {t : ServiceState} (ha : a = .proceed p env)
      (hp : p ∈ s.processes) (h : Access cfg (s.without p) p t) : Moves cfg s a t
  | quiet {t : ServiceState} (h : Quiet s t) : Moves cfg s a t

lemma moves_of_step (h : s.step cfg a = some t) : Moves cfg s a t := by
  cases a with
  | request si q b =>
    obtain rfl := some.inj h
    rcases @handleQueryRequest_cases cfg s
      ⟨si, s.nextQueryId, some q.requestId⟩ q b with hn | ⟨heq, hs⟩
    · refine .quiet ⟨rfl, rfl, le_rfl, _, _, rfl, .refl _, fun p hp => ?_⟩
      rw [mem_singleton.mp hp]
      exact hn
    · exact .start ⟨rfl, hs⟩ rfl rfl (by rw [heq]; rfl)
  | submit si requestId =>
    obtain rfl := some.inj h
    exact .start rfl rfl rfl rfl
  | proceed p env =>
    simp only [step] at h
    split at h
    case isTrue hp => exact .access rfl hp (access_of_poll h)
    case isFalse => cases h
  | disconnect p =>
    simp only [step] at h
    split at h
    case isTrue =>
      obtain rfl := some.inj h
      exact .quiet ⟨rfl, rfl, le_rfl, [], _, rfl, erase_sublist, nofun⟩
    case isFalse => cases h
  | abort id =>
    obtain rfl := some.inj h
    cases ha : s.registry.abort id with
    | ok registry =>
      exact .quiet ⟨rfl, (update_eq_ok ha).1,
        le_of_eq (count_update ha), [], _, rfl, .refl _, nofun⟩
    | error e => exact .quiet ⟨rfl, rfl, le_rfl, [], _, rfl, .refl _, nofun⟩

def requestOf (r : Uuid) (retryCount : Option ℕ) : ServiceAction :=
  .request "session" ⟨r, retryCount⟩ ⟨"SELECT 1", none⟩

def callOf (r : Uuid) (n : QueryId) : Call := ⟨"session", n, some r⟩

def checkSteps (call : Call) : List ServiceAction :=
  [.proceed (.submitting call) {}, .proceed (.checking call) {}]

def addSteps (call : Call) : List ServiceAction :=
  [.proceed (.adding call) {}, .proceed (.inserting call) {}]

def load (s : ServiceState) : ℕ :=
  s.registry.count + s.processes.countP admitted

def isCheck : ServiceAction → Bool
  | .proceed (.checking _) _ => true
  | _ => false

/-- A call passes the check only if there is room for the queries on their way as well. -/
def ChecksLoad (cfg : ServiceConfig) (s : ServiceState) (a : ServiceAction) : Prop :=
  isCheck a = true → cfg.maxConcurrencyLevel ≤ s.registry.count ∨ s.load < cfg.maxConcurrencyLevel

instance (a : ServiceAction) : Decidable (ChecksLoad cfg s a) :=
  inferInstanceAs (Decidable (_ → _))

lemma load_spawn (ps : List Process) : (s.spawn ps).load = s.load + ps.countP admitted := by
  simp only [load, registry_spawn, countP_spawn]
  omega

lemma load_without (hp : p ∈ s.processes) :
    s.load = (s.without p).load + if p.admitted then 1 else 0 := by
  rw [load, countP_without _ hp, ← Nat.add_assoc]
  rfl

lemma Quiet.load_le (h : Quiet s t) : t.load ≤ s.load :=
  Nat.add_le_add h.count_le (h.countP_le fun _ => admitted_eq_false)

lemma Access.load_le (h : Access cfg s p t) : t.load ≤ s.load + (if p.admitted then 1 else 0) ∨
    (∃ c, p = .checking c) ∧ s.registry.count < cfg.maxConcurrencyLevel ∧ t.load = s.load + 1 := by
  cases h with
  | findSession c => exact .inl (le_of_eq (load_spawn _))
  | passCheck c hc => exact .inr ⟨⟨c, rfl⟩, hc, load_spawn _⟩
  | index c =>
    refine .inl (le_of_eq ((load_spawn _).trans ?_))
    simp only [load, count_insertRequestId]
    rfl
  | register c =>
    have hc : (s.registry.insertQuery c.runningQuery).count ≤ s.registry.count + 1 :=
      count_insertQuery_le _
    refine .inl (le_of_eq_of_le (load_spawn _) ?_)
    show (s.registry.insertQuery _).count + s.processes.countP admitted ≤
      s.registry.count + s.processes.countP admitted + 1
    omega
  | quiet h => exact .inl (Nat.le_add_right_of_le h.load_le)

lemma Moves.load_le {a : ServiceAction} (h : Moves cfg s a t)
    (hg : ChecksLoad cfg s a) (hl : s.load ≤ cfg.maxConcurrencyLevel) :
    t.load ≤ cfg.maxConcurrencyLevel := by
  cases h with
  | start hs hr hreg hpr =>
    rw [load, hr, hpr, countP_cons]
    exact hl
  | access ha hp hac =>
    subst ha
    have hw := load_without hp
    rcases hac.load_le with hle | ⟨⟨call, rfl⟩, hc, heq⟩
    · omega
    · rcases hg rfl with hf | hroo
      · exact absurd hc (not_lt.mpr hf)
      · omega
  | quiet h => exact le_trans h.load_le hl

/-! ### Main results -/

/-- **The concurrency limit** is kept if the check counts the queries on their way as well. -/
theorem count_le_maxConcurrencyLevel {as : List ServiceAction}
    (hrun : (system cfg).Run (ChecksLoad cfg) as s) :
    s.registry.count ≤ cfg.maxConcurrencyLevel := by
  have hl : s.load ≤ cfg.maxConcurrencyLevel :=
    hrun.invariant (fun _ s => s.load ≤ cfg.maxConcurrencyLevel) (Nat.zero_le _)
      fun hl hg hs => (moves_of_step hs).load_le hg hl
  exact le_trans (Nat.le_add_right _ _) hl

theorem racing_submits_exceed_limit :
    ∃ s, (system ⟨1, false⟩).Run anyStep
        ([requestOf 7 none, requestOf 8 none] ++ checkSteps (callOf 7 0) ++
          checkSteps (callOf 8 1) ++ addSteps (callOf 7 0) ++ addSteps (callOf 8 1)) s ∧
      s.registry.count = 2 :=
  ⟨_, exec_eq_some_iff.mp rfl, rfl⟩

theorem sequential_submits_keep_limit :
    ∃ s, (system ⟨1, false⟩).Run (ChecksLoad ⟨1, false⟩)
        ([requestOf 7 none, requestOf 8 none] ++ checkSteps (callOf 7 0) ++
          addSteps (callOf 7 0) ++ checkSteps (callOf 8 1)) s ∧ s.registry.count ≤ 1 :=
  have hrun := exec_eq_some_iff.mp rfl
  ⟨_, hrun, count_le_maxConcurrencyLevel hrun⟩

variable {r : Uuid} {as : List ServiceAction} {c : Call}

def submits (r : Uuid) (p : Process) : Bool :=
  p.submission?.any fun call => call.requestId = some r

lemma submits_eq_false {p : Process} (h : p.submission? = none) : submits r p = false := by
  rw [submits, h]
  rfl

def registrations (s : ServiceState) (r : Uuid) : ℕ :=
  s.registered.countP fun rq => rq.requestId = some r

def Unclaimed (s : ServiceState) (r : Uuid) : Prop :=
  r ∉ s.registry.requestsIds ∧ ∀ p ∈ s.processes, submits r p = false

instance (r : Uuid) : Decidable (s.Unclaimed r) :=
  inferInstanceAs (Decidable (_ ∧ _))

/-- A request for `r` that will submit is looked up while `r` is unclaimed. -/
def SubmitsUnclaimed (cfg : ServiceConfig) (r : Uuid) (s : ServiceState) :
    ServiceAction → Prop
  | .request _ query body => query.requestId = r → body.asyncExec.getD false = true ∨
      0 < query.retryCount.getD 0 ∧ (cfg.retryDisable = true ∨ r ∈ s.registry.requestsIds) ∨
      s.Unclaimed r
  | .submit _ requestId => requestId = some r → s.Unclaimed r
  | _ => True

instance (r : Uuid) : (a : ServiceAction) → Decidable (SubmitsUnclaimed cfg r s a)
  | .request _ _ _ => inferInstanceAs (Decidable (_ → _))
  | .submit _ _ => inferInstanceAs (Decidable (_ → _))
  | .proceed _ _ => isTrue trivial
  | .disconnect _ => isTrue trivial
  | .abort _ => isTrue trivial

/-- The id is registered or on its way at most once. -/
structure Claimed (s : ServiceState) (r : Uuid) : Prop where
  once : s.registrations r + s.processes.countP (submits r) ≤ 1
  registered_mem : ∀ rq ∈ s.registered, rq.requestId = some r → r ∈ s.registry.requestsIds
  inserting_mem : ∀ call, .inserting call ∈ s.processes → call.requestId = some r →
    r ∈ s.registry.requestsIds

lemma Claimed.registrations_eq_zero (h : s.Claimed r) (hf : s.Unclaimed r) :
    s.registrations r = 0 := by
  rw [registrations, countP_eq_zero]
  intro rq hrq hr
  exact hf.1 (h.registered_mem rq hrq (of_decide_eq_true hr))

lemma unclaimed_of_starts (hg : SubmitsUnclaimed cfg r s a) (hs : Starts cfg s c a)
    (hr : c.requestId = some r) : s.Unclaimed r := by
  cases a with
  | request si query body =>
    obtain ⟨rfl, ha, hret⟩ := hs
    obtain rfl := some.inj hr
    rcases hg rfl with h | ⟨hc, h⟩ | h
    · rw [ha] at h
      cases h
    · obtain ⟨he, hm⟩ := hret hc
      rcases h with h | h
      · rw [he] at h
        cases h
      · exact absurd h hm
    · exact h
  | submit si requestId =>
    obtain rfl := hs
    exact hg hr
  | _ => cases hs

lemma mem_of_mem_without {q : Process} (h : q ∈ (s.without p).processes) : q ∈ s.processes :=
  mem_of_mem_erase h

lemma Claimed.start (h : s.Claimed r)
    (hf : c.requestId = some r → s.Unclaimed r) (hrg : t.registry = s.registry)
    (hreg : t.registered = s.registered)
    (hpr : t.processes = .submitting c :: s.processes) : t.Claimed r where
  once := by
    have ho := h.once
    rw [registrations, hreg, hpr, countP_cons, ← registrations]
    by_cases hr : c.requestId = some r
    · have hz : s.processes.countP (submits r) = 0 :=
        countP_eq_zero.mpr fun p hp => Bool.not_eq_true _ |>.mpr ((hf hr).2 p hp)
      rw [h.registrations_eq_zero (hf hr), hz]
      split <;> omega
    · have hs : submits r (.submitting c) = false := decide_eq_false hr
      rw [hs, if_neg Bool.false_ne_true]
      exact ho
  registered_mem := by
    rw [hreg, hrg]
    exact h.registered_mem
  inserting_mem := by
    rw [hpr, hrg]
    intro c' hc'
    exact h.inserting_mem c' ((mem_cons.mp hc').resolve_left nofun)

lemma Claimed.quiet (h : s.Claimed r) (hq : Quiet s t) : t.Claimed r where
  once := by
    have ho := h.once
    have hle := hq.countP_le fun _ => submits_eq_false (r := r)
    rw [registrations, hq.registered_eq, ← registrations]
    omega
  registered_mem := by
    rw [hq.registered_eq, hq.requestsIds_eq]
    exact h.registered_mem
  inserting_mem := by
    obtain ⟨ps, rest, hps, hr, hn⟩ := hq.processes_eq
    rw [hps, hq.requestsIds_eq]
    intro c hc
    rcases mem_append.mp hc with hc | hc
    · cases hn _ hc
    · exact h.inserting_mem c (hr.subset hc)

lemma Claimed.move (h : s.Claimed r) (hp : p ∈ s.processes) (q : Process)
    (hpq : submits r p = submits r q) (hreg : t.registered = s.registered)
    (hpr : t.processes = q :: (s.without p).processes)
    (hk : r ∈ s.registry.requestsIds → r ∈ t.registry.requestsIds)
    (hq : ∀ c, q = .inserting c → c.requestId = some r →
      r ∈ t.registry.requestsIds) : t.Claimed r where
  once := by
    have ho := h.once
    rw [countP_without _ hp, hpq] at ho
    rw [registrations, hreg, hpr, countP_cons, ← registrations]
    omega
  registered_mem := by
    rw [hreg]
    exact fun rq hrq hr => hk (h.registered_mem rq hrq hr)
  inserting_mem := by
    rw [hpr]
    intro c hc hr
    rcases mem_cons.mp hc with hc | hc
    · exact hq c hc.symm hr
    · exact hk (h.inserting_mem c (mem_of_mem_without hc) hr)

lemma Claimed.register {r : Uuid} (h : s.Claimed r)
    (hp : .inserting c ∈ s.processes) (hreg : t.registered = c.runningQuery ::
      s.registered) (hpr : t.processes = .starting c ::
      (s.without (.inserting c)).processes)
    (hi : t.registry.requestsIds = s.registry.requestsIds) : t.Claimed r where
  once := by
    have ho := h.once
    have hs : submits r (.starting c) = false := rfl
    have hc : submits r (.inserting c) = decide (c.runningQuery.requestId = some r) := rfl
    rw [countP_without _ hp, hc, registrations] at ho
    rw [registrations, hreg, hpr, countP_cons, countP_cons, hs, if_neg Bool.false_ne_true]
    omega
  registered_mem := by
    rw [hreg, hi]
    intro rq hrq hr
    rcases mem_cons.mp hrq with rfl | hrq
    · exact h.inserting_mem c hp hr
    · exact h.registered_mem rq hrq hr
  inserting_mem := by
    rw [hpr, hi]
    intro c' hc'
    exact h.inserting_mem c'
      (mem_of_mem_without ((mem_cons.mp hc').resolve_left nofun))

lemma Quiet.of_without (h : Quiet (s.without p) t) : Quiet s t := by
  obtain ⟨ps, rs, hps, hr, hn⟩ := h.processes_eq
  exact ⟨h.registered_eq, h.requestsIds_eq, h.count_le, ps, rs, hps, hr.trans erase_sublist, hn⟩

lemma Claimed.access (h : s.Claimed r) (hp : p ∈ s.processes)
    (ha : Access cfg (s.without p) p t) : t.Claimed r := by
  cases ha with
  | findSession c => exact h.move hp (.checking c) rfl rfl rfl id nofun
  | passCheck c hc => exact h.move hp (.adding c) rfl rfl rfl id nofun
  | index c =>
    refine h.move hp (.inserting c) rfl rfl rfl
      (fun hr => mem_requestsIds_insertRequestId.mpr (.inl hr)) ?_
    rintro _ ⟨rfl⟩ hr
    exact mem_requestsIds_insertRequestId.mpr (.inr hr)
  | register c => exact h.register hp rfl rfl rfl
  | quiet hq => exact h.quiet hq.of_without

lemma Claimed.step (h : s.Claimed r)
    (hg : SubmitsUnclaimed cfg r s a) (hm : Moves cfg s a t) : t.Claimed r := by
  cases hm with
  | start hs hreg hr hpr => exact h.start (unclaimed_of_starts hg hs) hreg hr hpr
  | access ha hp hac => exact h.access hp hac
  | quiet hq => exact h.quiet hq

lemma claimed_init (r : Uuid) : init.Claimed r :=
  ⟨Nat.zero_le _, nofun, nofun⟩

lemma claimed_of_run (hrun : (system cfg).Run (SubmitsUnclaimed cfg r) as s) : s.Claimed r :=
  hrun.invariant (fun _ s => s.Claimed r) (claimed_init r)
    fun h hg hs => h.step hg (moves_of_step hs)

/-- **At most one execution per request id**, if every submission finds the id unclaimed. -/
theorem registrations_le_one {r : Uuid} {as : List ServiceAction}
    (hrun : (system cfg).Run (SubmitsUnclaimed cfg r) as s) : s.registrations r ≤ 1 :=
  le_trans (Nat.le_add_right _ _) (claimed_of_run hrun).once

theorem early_retry_registers_twice :
    ∃ s, (system ⟨100, false⟩).Run anyStep
        ([requestOf 7 none, requestOf 7 (some 1)] ++ checkSteps (callOf 7 0) ++
          addSteps (callOf 7 0) ++ checkSteps (callOf 7 1) ++ addSteps (callOf 7 1)) s ∧
      s.registrations 7 = 2 :=
  ⟨_, exec_eq_some_iff.mp rfl, rfl⟩

theorem late_retry_registers_once :
    ∃ s, (system ⟨100, false⟩).Run (SubmitsUnclaimed ⟨100, false⟩ 7)
        ([requestOf 7 none] ++ checkSteps (callOf 7 0) ++ addSteps (callOf 7 0) ++
          [requestOf 7 (some 1)]) s ∧ s.registrations 7 ≤ 1 :=
  have hrun := exec_eq_some_iff.mp rfl
  ⟨_, hrun, registrations_le_one hrun⟩

/-- The executions registered for a request id, and the submissions on their way to one. -/
def executions (s : ServiceState) (r : Uuid) : ℕ :=
  s.registrations r + s.processes.countP (submits r)

/-- A submission of `r` that is not a retry. -/
def isFirst (r : Uuid) : ServiceAction → Bool
  | .request _ query _ => query.requestId = r ∧ query.retryCount.getD 0 = 0
  | .submit _ requestId => requestId = some r
  | _ => false

lemma isFirst_of_starts (hc : cfg.retryDisable = true) (hs : Starts cfg s c a)
    (hr : c.requestId = some r) : isFirst r a = true := by
  cases a with
  | request si q b =>
    obtain ⟨rfl, -, hret⟩ := hs
    refine decide_eq_true ⟨some.inj hr, Nat.eq_zero_of_not_pos fun hpos => ?_⟩
    rw [hc] at hret
    cases (hret hpos).1
  | submit si id =>
    obtain rfl := hs
    exact decide_eq_true hr
  | _ => cases hs

lemma Quiet.executions_le (h : Quiet s t) : t.executions r ≤ s.executions r := by
  have hle := h.countP_le fun _ => submits_eq_false (r := r)
  rw [executions, registrations, h.registered_eq]
  exact Nat.add_le_add_left hle _

lemma Access.executions_le (h : Access cfg (s.without p) p t) (hp : p ∈ s.processes) :
    t.executions r ≤ s.executions r := by
  have hw := countP_without (submits r) hp
  cases h with
  | quiet hq => exact hq.of_without.executions_le
  | _ =>
    simp +arith [executions, registrations, hw, spawn, without, countP_cons, submits,
      submission?, Call.runningQuery]

lemma Moves.executions_le (hc : cfg.retryDisable = true) (h : Moves cfg s a t) :
    t.executions r ≤ s.executions r + if isFirst r a then 1 else 0 := by
  cases h with
  | @start c _ hs _ hreg hpr =>
    rw [executions, registrations, hreg, hpr, countP_cons, ← Nat.add_assoc]
    refine Nat.add_le_add_left ?_ _
    by_cases hr : c.requestId = some r
    · rw [isFirst_of_starts hc hs hr]
      split <;> simp
    · simp [submits, submission?, hr]
  | access _ hp ha => exact Nat.le_add_right_of_le (ha.executions_le hp)
  | quiet hq => exact Nat.le_add_right_of_le hq.executions_le

/-- **With `retry-disable`** no interleaving executes a request more often than it is submitted
without being a retry. -/
theorem registrations_le_countP_isFirst (hc : cfg.retryDisable = true) {r : Uuid}
    {as : List ServiceAction} (hrun : (system cfg).Run anyStep as s) :
    s.registrations r ≤ as.countP (isFirst r) := by
  refine le_trans (Nat.le_add_right _ _) (hrun.invariant
    (fun as s => s.executions r ≤ as.countP (isFirst r)) (Nat.zero_le _) ?_)
  intro as s t a hle _ hs
  rw [countP_append, countP_singleton]
  exact le_trans ((moves_of_step hs).executions_le hc) (Nat.add_le_add_right hle _)

theorem disabled_retry_registers_once :
    ∃ s, (system ⟨100, true⟩).Run anyStep ([requestOf 7 none, requestOf 7 (some 1)] ++
        checkSteps (callOf 7 0) ++ addSteps (callOf 7 0)) s ∧ s.registrations 7 ≤ 1 :=
  have hrun := exec_eq_some_iff.mp rfl
  ⟨_, hrun, registrations_le_countP_isFirst rfl hrun⟩

end ServiceState

end Rustice
