import Rustice.Kleene

/-!
# LIKE ANY

A visitor rewrites `x LIKE ANY (p, q)` to `x LIKE p OR x LIKE q`, and `ILIKE ANY` alike.
-/

namespace Rustice

/-- `Expr`; `node` stands for the kinds of expressions that the visitor only descends into. -/
inductive LikeExpr (α : Type) where
  | node (label : α) (children : List (LikeExpr α))
  | like (negated any : Bool) (expr pattern : LikeExpr α) (escapeChar : Option String)
  | iLike (negated any : Bool) (expr pattern : LikeExpr α) (escapeChar : Option String)
  | or (left right : LikeExpr α)
  | nested (expr : LikeExpr α)
  | tuple (exprs : List (LikeExpr α))

variable {α V : Type}

def likeExpr (caseSensitive negated any : Bool) (expr pattern : LikeExpr α)
    (escapeChar : Option String) : LikeExpr α :=
  if caseSensitive then .iLike negated any expr pattern escapeChar
  else .like negated any expr pattern escapeChar

def newExpr (negated : Bool) (innerExpr pattern : LikeExpr α) (escapeChar : Option String)
    (caseSensitive : Bool) : Option (LikeExpr α) :=
  match pattern with
  | .tuple patterns => do
    let last ← patterns.getLast?
    let newExpr := likeExpr caseSensitive negated false innerExpr last escapeChar
    some ((patterns.reverse.drop 1).foldl (fun newExpr pattern =>
      .or (likeExpr caseSensitive negated false innerExpr pattern escapeChar) newExpr) newExpr)
  | .nested pattern => some (likeExpr caseSensitive negated false innerExpr pattern escapeChar)
  | pattern => some pattern

structure LikeModel (α V : Type) where
  apply : α → List V → V
  tuple : List V → V
  condition : Truth → V
  truth : V → Truth
  truth_condition : ∀ t, truth (condition t) = t
  like : V → V → Option String → Truth
  iLike : V → V → Option String → Truth

def negate (negated : Bool) (t : Truth) : Truth :=
  if negated then t.not else t

namespace LikeModel

variable (M : LikeModel α V)

def matchAny (matchPattern : V → V → Option String → Truth) (negated : Bool) (subject : V)
    (patterns : List V) (escapeChar : Option String) : V :=
  M.condition
    (negate negated (Truth.anyOf (patterns.map fun p => matchPattern subject p escapeChar)))

mutual

def eval : LikeExpr α → V
  | .node label children => M.apply label (evalAll children)
  | .like negated true expr (.tuple patterns) escapeChar =>
    M.matchAny M.like negated (eval expr) (evalAll patterns) escapeChar
  | .like negated _ expr pattern escapeChar =>
    M.matchAny M.like negated (eval expr) [eval pattern] escapeChar
  | .iLike negated true expr (.tuple patterns) escapeChar =>
    M.matchAny M.iLike negated (eval expr) (evalAll patterns) escapeChar
  | .iLike negated _ expr pattern escapeChar =>
    M.matchAny M.iLike negated (eval expr) [eval pattern] escapeChar
  | .or left right => M.condition (Truth.or (M.truth (eval left)) (M.truth (eval right)))
  | .nested expr => eval expr
  | .tuple exprs => M.tuple (evalAll exprs)

def evalAll : List (LikeExpr α) → List V
  | [] => []
  | expr :: exprs => eval expr :: evalAll exprs

end

def matching (caseSensitive : Bool) : V → V → Option String → Truth :=
  if caseSensitive then M.iLike else M.like

def matchOne (caseSensitive : Bool) (subject pattern : LikeExpr α) (escapeChar : Option String) :
    Truth :=
  M.matching caseSensitive (M.eval subject) (M.eval pattern) escapeChar

end LikeModel

variable {M : LikeModel α V} {negated n caseSensitive cs : Bool} {subject s pattern pt : LikeExpr α}
  {escapeChar ec : Option String}

lemma eval_likeExpr :
    M.eval (likeExpr cs n false s pt ec) = M.condition (negate n (M.matchOne cs s pt ec)) := by
  cases cs <;>
    simp [likeExpr, LikeModel.eval, LikeModel.matchAny, LikeModel.matchOne, LikeModel.matching,
      Truth.anyOf, Truth.or_false]

lemma newExpr_tuple {ps : List (LikeExpr α)} (hne : ps ≠ []) :
    ∃ e, newExpr n s (.tuple ps) ec cs = some e ∧
      M.eval e = M.condition (Truth.anyOf (ps.map fun p =>
        negate n (M.matchOne cs s p ec))) := by
  rcases List.eq_nil_or_concat ps with rfl | ⟨i, l, rfl⟩
  · exact absurd rfl hne
  refine ⟨i.foldr (fun pt newExpr =>
    .or (likeExpr cs n false s pt ec) newExpr)
    (likeExpr cs n false s l ec), ?_, ?_⟩
  · simp [newExpr, List.foldl_reverse]
  · clear hne
    -- From the last pattern on, each pattern adds a disjunct in front.
    induction i with
    | nil => simp [eval_likeExpr, Truth.anyOf, Truth.or_false]
    | cons p i ih =>
      rw [List.foldr_cons, LikeModel.eval, ih, eval_likeExpr, M.truth_condition, M.truth_condition]
      rfl

/-- A tuple of several patterns, or a parenthesised one. -/
def IsPatternList (pattern : LikeExpr α) (patterns : List (LikeExpr α)) : Prop :=
  pattern = .tuple patterns ∨ ∃ p, pattern = .nested p ∧ patterns = [p]

/-! ### Main result -/

/-- **`[NOT] LIKE ANY`** is rewritten right exactly if not negated, or if all patterns match alike.
-/
theorem newExpr_truth_eq_iff (M : LikeModel α V) (negated caseSensitive : Bool)
    (subject pattern : LikeExpr α) (patterns : List (LikeExpr α)) (escapeChar : Option String)
    (hne : patterns ≠ []) (hpattern : IsPatternList pattern patterns) :
    (newExpr negated subject pattern escapeChar caseSensitive).map (fun e => M.truth (M.eval e)) =
        some (negate negated (Truth.anyOf (patterns.map fun p =>
          M.matchOne caseSensitive subject p escapeChar))) ↔
      negated = false ∨ ∀ p ∈ patterns, ∀ q ∈ patterns,
        M.matchOne caseSensitive subject p escapeChar =
          M.matchOne caseSensitive subject q escapeChar := by
  rcases hpattern with rfl | ⟨p, rfl, rfl⟩
  · obtain ⟨expr, hex, he⟩ := @newExpr_tuple α V M negated caseSensitive subject escapeChar
      patterns hne
    rw [hex, Option.map_some, he, M.truth_condition, Option.some.injEq]
    cases negated with
    | false => simp [negate]
    | true =>
      have hn' : (patterns.map fun p => M.matchOne caseSensitive subject p escapeChar) ≠ [] := by
        simpa using hne
      have hmap := Truth.anyOf_map_not_eq_iff hn'
      simp only [List.map_map, List.forall_mem_map] at hmap
      rw [or_iff_right Bool.noConfusion, ← hmap]
      rfl
  · simp [newExpr, eval_likeExpr, M.truth_condition, Truth.anyOf, Truth.or_false]

def assignedMatches : LikeModel Truth Truth where
  apply t _ := t
  tuple _ := none
  condition t := t
  truth t := t
  truth_condition _ := rfl
  like _ p _ := p
  iLike _ p _ := p

theorem newExpr_truth_eq_null_true :
    (newExpr false (.node none []) (.tuple [.node none [], .node (some true) []]) (some "!")
        true).map (fun e => assignedMatches.truth (assignedMatches.eval e)) = some (some true) :=
  (newExpr_truth_eq_iff assignedMatches false true _ _ _ _ (List.cons_ne_nil _ _) (.inl rfl)).mpr
    (.inl rfl)

theorem newExpr_truth_ne :
    (newExpr true (.node none []) (.tuple [.node (some true) [], .node (some false) []]) none
        false).map (fun e => assignedMatches.truth (assignedMatches.eval e)) = some (some true) ∧
      negate true (Truth.anyOf [some true, some false]) = some false := by
  constructor <;> rfl

end Rustice
