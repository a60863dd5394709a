import Rustice.DecimalText

/-!
# Aliases of Select Expressions

`AddAliasesToSelectExpressions` goes through the list of a `SELECT` from left to right.
-/

namespace Rustice

open List

inductive SelectItem (E : Type) where
  | unnamedExpr (expr : E)
  | exprWithAlias (expr : E) (ident : String)

def exprAlias (counter : ℕ) : String := "expr_" ++ toString counter

open SelectItem

section Aliases

variable {E : Type} (print : E → String)

def SelectItem.outputName : SelectItem E → String
  | .unnamedExpr expr => print expr
  | .exprWithAlias _ ident => ident

/-- The loop of `pre_visit_query` over the projection. -/
def aliasItems : List String → ℕ → List (SelectItem E) → List (SelectItem E)
  | _, _, [] => []
  | seen, counter, .unnamedExpr expr :: items =>
    if print expr ∈ seen then
      .exprWithAlias expr (exprAlias counter) :: aliasItems seen (counter + 1) items
    else .unnamedExpr expr :: aliasItems (print expr :: seen) counter items
  | seen, counter, .exprWithAlias expr ident :: items =>
    .exprWithAlias expr ident :: aliasItems (ident :: seen) counter items

def addAliasesToSelect (items : List (SelectItem E)) : List (SelectItem E) :=
  aliasItems print [] 0 items

def explicitAliases : List (SelectItem E) → List String
  | [] => []
  | .unnamedExpr _ :: items => explicitAliases items
  | .exprWithAlias _ ident :: items => ident :: explicitAliases items

/-- Names are distinct, and a text stays unless an item before it has it. -/
structure UniqueAndMinimal (items : List (SelectItem E)) : Prop where
  unique : ((addAliasesToSelect print items).map (outputName print)).Nodup
  unchanged : ∀ (i : ℕ) (expr : E) (ident : String), items[i]? = some (.exprWithAlias expr ident) →
      (addAliasesToSelect print items)[i]? = some (.exprWithAlias expr ident)
  minimal : ∀ (i : ℕ) (expr : E), items[i]? = some (.unnamedExpr expr) →
    (addAliasesToSelect print items)[i]? = some (.unnamedExpr expr) ∨
      print expr ∈ ((addAliasesToSelect print items).take i).map (outputName print)

def generatedCount : List String → List (SelectItem E) → ℕ
  | _, [] => 0
  | seen, .unnamedExpr expr :: items =>
    if print expr ∈ seen then generatedCount seen items + 1
    else generatedCount (print expr :: seen) items
  | seen, .exprWithAlias _ ident :: items => generatedCount (ident :: seen) items

def LaterAliasesDiffer : List String → List (SelectItem E) → Prop
  | _, [] => True
  | seen, .unnamedExpr expr :: items =>
    if print expr ∈ seen then LaterAliasesDiffer seen items
    else print expr ∉ explicitAliases items ∧ LaterAliasesDiffer (print expr :: seen) items
  | seen, .exprWithAlias _ ident :: items => LaterAliasesDiffer (ident :: seen) items

def givenNames : List String → List (SelectItem E) → List String
  | _, [] => []
  | seen, .unnamedExpr expr :: items =>
    if print expr ∈ seen then givenNames seen items
    else print expr :: givenNames (print expr :: seen) items
  | seen, .exprWithAlias _ ident :: items => ident :: givenNames (ident :: seen) items

variable {print} {items xs : List (SelectItem E)} {seen s : List String} {c : ℕ} {name nm : String}
  {i : ℕ} {e : E}

lemma exprAlias_injective : Function.Injective exprAlias := by
  intro m n h
  have ht : toString m = toString n := (String.append_right_inj "expr_").mp h
  have hd : Nat.toDigits 10 m = Nat.toDigits 10 n := String.ofList_injective ht
  have hr := readDigits_toDigits m
  rw [hd, readDigits_toDigits] at hr
  exact (Option.some.inj hr).symm

lemma map_aliasItems_perm : ((aliasItems print s c xs).map (outputName print)).Perm
    (givenNames print s xs ++ (List.range' c (generatedCount print s xs)).map exprAlias) := by
  fun_induction aliasItems print s c xs with
  | case1 => exact .refl _
  | case2 s c e xs hm ih =>
    rw [givenNames, if_pos hm, generatedCount, if_pos hm, range'_succ, map_cons, map_cons]
    exact (ih.cons _).trans perm_middle.symm
  | case3 s c e xs hm ih =>
    rw [givenNames, if_neg hm, generatedCount, if_neg hm]
    exact ih.cons _
  | case4 s c e ident xs ih => exact ih.cons _

lemma mem_explicitAliases_of_mem_givenNames (h : nm ∈ givenNames print seen xs) :
    nm ∈ explicitAliases xs ∨ nm ∉ seen := by
  fun_induction givenNames print seen xs with
  | case1 => cases h
  | case2 seen e xs hm ih => exact ih h
  | case3 seen e xs hm ih =>
    rcases mem_cons.mp h with rfl | h
    · exact .inr hm
    · exact (ih h).imp_right fun hn hs => hn (mem_cons_of_mem _ hs)
  | case4 seen e ident xs ih =>
    rcases mem_cons.mp h with rfl | h
    · exact .inl mem_cons_self
    · exact (ih h).imp (mem_cons_of_mem _) fun hn hs =>
        hn (mem_cons_of_mem _ hs)

lemma mem_givenNames_of_mem_explicitAliases (h : nm ∈ explicitAliases items) :
    nm ∈ givenNames print s items := by
  fun_induction givenNames print s items with
  | case1 => cases h
  | case2 s e items hm ih => exact ih h
  | case3 s e items hm ih => exact mem_cons_of_mem _ (ih h)
  | case4 s e ident items ih =>
    rcases mem_cons.mp h with rfl | h
    · exact mem_cons_self
    · exact mem_cons_of_mem _ (ih h)

lemma mem_givenNames_or_iff :
    nm ∈ givenNames print seen xs ∨ nm ∈ seen ↔ nm ∈ xs.map (outputName print) ∨ nm ∈ seen := by
  fun_induction givenNames print seen xs with
  | case1 => exact Iff.rfl
  | case2 seen e xs hm ih =>
    simp only [ih, map_cons, mem_cons, outputName]
    grind
  | case3 seen e xs hm ih =>
    simp only [map_cons, mem_cons, outputName] at ih ⊢
    grind
  | case4 seen e ident xs ih =>
    simp only [map_cons, mem_cons, outputName] at ih ⊢
    grind

lemma nodup_givenNames_iff (h : (explicitAliases items).Nodup) :
    (givenNames print s items).Nodup ↔ LaterAliasesDiffer print s items := by
  fun_induction givenNames print s items with
  | case1 => simp [LaterAliasesDiffer]
  | case2 s e items hm ih => rw [ih h, LaterAliasesDiffer, if_pos hm]
  | case3 s e items hm ih =>
    rw [nodup_cons, ih h, LaterAliasesDiffer, if_neg hm]
    refine and_congr_left fun _ => not_congr ⟨fun hg => ?_, ?_⟩
    · exact (mem_explicitAliases_of_mem_givenNames hg).resolve_right fun hn =>
        hn mem_cons_self
    · exact mem_givenNames_of_mem_explicitAliases
  | case4 s e ident items ih =>
    rw [explicitAliases, nodup_cons] at h
    rw [nodup_cons, ih h.2, LaterAliasesDiffer]
    refine and_iff_right fun hg => ?_
    rcases mem_explicitAliases_of_mem_givenNames hg with hm | hn
    · exact h.1 hm
    · exact hn mem_cons_self

lemma getElem?_aliasItems_of_alias {idn : String} (h : xs[i]? = some (.exprWithAlias e idn)) :
    (aliasItems print s c xs)[i]? = some (.exprWithAlias e idn) := by
  fun_induction aliasItems print s c xs generalizing i with
  | case1 => cases h
  | case2 s c e' xs hm ih | case3 s c e' xs hm ih =>
    cases i with
    | zero => cases h
    | succ i => exact ih h
  | case4 s c e' idn' xs ih =>
    cases i with
    | zero => exact h
    | succ i => exact ih h

lemma getElem?_aliasItems_of_unnamed (h : xs[i]? = some (.unnamedExpr e)) :
    (aliasItems print s c xs)[i]? = some (.unnamedExpr e) ∨ print e ∈ s ∨ print e ∈
        ((aliasItems print s c xs).take i).map (outputName print) := by
  fun_induction aliasItems print s c xs generalizing i with
  | case1 => cases h
  | case2 s c e' xs hm ih =>
    cases i with
    | zero =>
      cases h
      exact .inr (.inl hm)
    | succ i => exact (ih h).imp_right (Or.imp_right (mem_cons_of_mem _))
  | case3 s c e' xs hm ih | case4 s c e' ident xs ih =>
    cases i with
    | zero => exact .inl h
    | succ i =>
      refine (ih h).imp_right fun hb => ?_
      rw [mem_cons, or_comm (b := _ ∈ s), or_assoc, ← mem_cons] at hb
      exact hb

/-! ### Main result -/

/-- **Generated aliases** are unique exactly if no item has one of the generated names. -/
theorem uniqueAndMinimal_iff (h : (explicitAliases items).Nodup) :
    UniqueAndMinimal print items ↔ (∀ k < generatedCount print [] items,
        exprAlias k ∉ items.map (outputName print)) ∧
      LaterAliasesDiffer print [] items := by
  have hn : ∀ name, name ∈ givenNames print [] items ↔
      name ∈ items.map (outputName print) := fun name => by
    simpa using @mem_givenNames_or_iff E print items [] name
  have hu : ((addAliasesToSelect print items).map (outputName print)).Nodup ↔
      (∀ k < generatedCount print [] items, exprAlias k ∉ items.map (outputName print)) ∧
      LaterAliasesDiffer print [] items := by
    have hg : ((List.range' 0 (generatedCount print [] items)).map exprAlias).Nodup :=
      (nodup_range' _).map exprAlias_injective
    rw [addAliasesToSelect, map_aliasItems_perm.nodup_iff, nodup_append',
      nodup_givenNames_iff h, and_iff_right hg, and_comm]
    refine and_congr_left fun _ =>
      ⟨fun hd k hk hm => ?_, fun ha name hgiv hnam => ?_⟩
    · exact hd ((hn _).mpr hm) (mem_map_of_mem (by simpa using hk))
    · obtain ⟨k, hk, rfl⟩ := mem_map.mp hnam
      exact ha k (by simpa using hk) ((hn _).mp hgiv)
  rw [← hu]
  refine ⟨UniqueAndMinimal.unique, fun hnod => ⟨hnod, fun i e ident hi => ?_, fun i e hi => ?_⟩⟩
  · exact getElem?_aliasItems_of_alias hi
  · rcases getElem?_aliasItems_of_unnamed hi with hkee | hs | hb
    exacts [.inl hkee, absurd hs not_mem_nil, .inr hb]

end Aliases

theorem uniqueAndMinimal_repeated :
    UniqueAndMinimal id [SelectItem.unnamedExpr "a", .unnamedExpr "a"] :=
  (uniqueAndMinimal_iff (by decide)).mpr
    ⟨by decide +kernel, by simp [LaterAliasesDiffer, explicitAliases]⟩

theorem not_uniqueAndMinimal :
    (addAliasesToSelect id [.exprWithAlias "a" "expr_0", .unnamedExpr "b", .unnamedExpr "b"]).map
        (outputName id) = ["expr_0", "b", "expr_0"] ∧
      ¬UniqueAndMinimal id [.exprWithAlias "a" "expr_0", .unnamedExpr "b", .unnamedExpr "b"] ∧
      ¬UniqueAndMinimal id [.unnamedExpr "a", .exprWithAlias "b" "a"] :=
  ⟨by decide +kernel, fun h => absurd h.unique (by decide +kernel),
    fun h => absurd h.unique (by decide +kernel)⟩

end Rustice
