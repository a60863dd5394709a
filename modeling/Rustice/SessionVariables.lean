import Rustice.AsciiCase
import Rustice.SessionProperty
import Rustice.StringMap

/-!
# Session Variables

`set_session_variable` sorts a map of parameters by their names.
-/

namespace Rustice

abbrev PropertyMap := AList fun _ : String => SessionProperty

structure VariableState (V : Type) where
  options : String → V
  properties : Option PropertyMap

/-- The values of options, and how the engine reads one of them from a text or refuses it. -/
structure ConfigEnv (V ε : Type) where
  parse : String → String → Except ε V

def isDatafusion (key : String) : Bool :=
  "datafusion.".toList.isPrefixOf (toAsciiLowercase key).toList

def datafusionParams (params : PropertyMap) : List (String × String) :=
  (params.entries.filter fun e => isDatafusion e.1).map fun e => (toAsciiLowercase e.1, e.2.value)

def sessionParams (params : PropertyMap) : PropertyMap :=
  (params.entries.filter fun e => !isDatafusion e.1).foldl
    (fun map e => map.insert (toAsciiLowercase e.1) e.2) ∅

def setProperties (map properties : PropertyMap) : PropertyMap :=
  properties.entries.foldl (fun map e => map.insert e.1 e.2) map

def removeProperties (map properties : PropertyMap) : PropertyMap :=
  properties.entries.foldl (fun map e => map.erase e.1) map

namespace VariableState

variable {V : Type} (state : VariableState V)

def property (key : String) : Option SessionProperty := state.properties.bind (·.lookup key)

end VariableState

namespace ConfigEnv

variable {V ε : Type} (env : ConfigEnv V ε)

def set (options : String → V) (key value : String) : Except ε (String → V) :=
  (env.parse key value).map (Function.update options key)

def setOptions : (String → V) → List (String × String) → Except ε Unit × (String → V)
  | options, [] => (.ok (), options)
  | options, (key, value) :: rest =>
    match env.set options key value with
    | .error e => (.error e, options)
    | .ok options => setOptions options rest

def setSessionVariable (set : Bool) (params : PropertyMap) (state : VariableState V) :
    Except ε Unit × VariableState V :=
  match env.setOptions state.options (datafusionParams params) with
  | (.error e, options) => (.error e, { state with options })
  | (.ok (), options) =>
    (.ok (), ⟨options, state.properties.map fun map =>
      if set then setProperties map (sessionParams params)
      else removeProperties map (sessionParams params)⟩)

/-- A call that fails changes nothing, and one that unsets gives no new value. -/
def Atomic (set : Bool) (params : PropertyMap) (state : VariableState V) : Prop :=
  let (result, state') := env.setSessionVariable set params state
  (∀ e, result = .error e → state' = state) ∧ (set = false → state'.options = state.options ∧
      ∀ key prop, state'.property key = some prop → state.property key = some prop)

/-- The parameters before the first that is refused, with their values. -/
def accepted : List (String × String) → List (String × V)
  | [] => []
  | (key, value) :: rest =>
    match env.parse key value with
    | .error _ => []
    | .ok v => (key, v) :: accepted rest

variable {env} {set : Bool} {params : PropertyMap} {state : VariableState V}
  {options : String → V} {ps : List (String × String)}

lemma setOptions_fst_eq_ok_iff : (env.setOptions options ps).1 = .ok () ↔
    ∀ p ∈ ps, ∃ v, env.parse p.1 p.2 = .ok v := by
  induction ps generalizing options with
  | nil => simp [setOptions]
  | cons p ps ih =>
    obtain ⟨key, value⟩ := p
    rw [setOptions, ConfigEnv.set, List.forall_mem_cons]
    cases env.parse key value with
    | error e => simp [Except.map]
    | ok v => simp [Except.map, ih]

lemma setOptions_snd_apply (key : String) : (env.setOptions options ps).2 key =
    ((env.accepted ps).reverse.lookup key).getD (options key) := by
  induction ps generalizing options with
  | nil => rfl
  | cons p ps ih =>
    obtain ⟨key', value⟩ := p
    rw [setOptions, ConfigEnv.set, accepted]
    cases env.parse key' value with
    | error e => rfl
    | ok v =>
      show (env.setOptions (Function.update options key' v) ps).2 key = _
      rw [ih, List.reverse_cons, List.lookup_append]
      cases (env.accepted ps).reverse.lookup key with
      | some w => rfl
      | none =>
        by_cases hk : key = key'
        · simp [hk]
        · simp [hk, List.lookup_cons, beq_false_of_ne hk]

lemma setOptions_snd_eq_iff : (env.setOptions options ps).2 = options ↔
    ∀ key v, (env.accepted ps).reverse.lookup key = some v → options key = v := by
  simp only [funext_iff, setOptions_snd_apply]
  refine forall_congr' fun key => ?_
  cases (env.accepted ps).reverse.lookup key <;> simp [eq_comm]

/-! ### Main result -/

def twoOptions : ConfigEnv (ℕ ⊕ Bool) String where
  parse
    | "datafusion.execution.batch_size", value =>
      match readDigits value.toList with
      | some n => .ok (.inl n)
      | none => .error "batch_size"
    | "datafusion.execution.collect_statistics", value =>
      match parseBool value with
      | some b => .ok (.inr b)
      | none => .error "collect_statistics"
    | key, _ => .error key

def twoDefaults (key : String) : ℕ ⊕ Bool :=
  if key = "datafusion.execution.batch_size" then .inl 8192 else .inr true

def batchOfTen : String → ℕ ⊕ Bool :=
  Function.update twoDefaults "datafusion.execution.batch_size" (.inl 10)

def textProperty (name value : String) : SessionProperty :=
  ⟨some "s1", 0, 0, value, .text, none, name⟩

def batchParams : PropertyMap :=
  AList.insert "datafusion.execution.batch_size"
    (textProperty "datafusion.execution.batch_size" "10") ∅

def refusedParams : PropertyMap :=
  AList.insert "datafusion.execution.batch_size"
    (textProperty "datafusion.execution.batch_size" "10")
    (AList.insert "datafusion.execution.collect_statistics"
      (textProperty "datafusion.execution.collect_statistics" "maybe") ∅)

end ConfigEnv

end Rustice
