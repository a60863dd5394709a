import Rustice.AsciiCase
import Rustice.Regexp

/-!
# `LOWER` and `REPLACE` of Encoded Columns

Each encoding of a column of strings has its own way through the functions.
-/

namespace Rustice

open List

inductive EncodingError where
  | failedToDowncast

structure TextOps where
  toLowercase : String → String
  replace : String → String → String → String

/-- The arguments of `REPLACE`, as arrays; the third may be missing. -/
structure ReplaceArgs where
  strings : List (Option String)
  froms : List (Option String)
  tos : Option (List (Option String))

namespace TextOps

variable (ops : TextOps)

def lower : StringType → List (Option String) → Except EncodingError (List (Option String))
  | .utf8, rows => .ok (rows.map (·.map ops.toLowercase))
  -- `as_string_array` takes a `StringArray` only
  | .largeUtf8, _ => .error .failedToDowncast
  -- cast to `Utf8`
  | .utf8View, rows => .ok rows

def lowerSimplify (literal : Option String) : Option String := literal.map ops.toLowercase

def replaceRow : Option String × Option String × Option String → Option String
  | (some string, some pattern, some target) => ops.replace string pattern target
  | (some string, some pattern, none) => ops.replace string pattern ""
  | _ => none

def replaceViewRow : Option String × Option String × Option String → Option String
  | (some string, some pattern, some target) => ops.replace string pattern target
  | _ => none

end TextOps

def ReplaceArgs.rows (args : ReplaceArgs) : List (Option String × Option String × Option String) :=
  args.strings.zip (args.froms.zip (args.tos.getD (List.replicate args.strings.length (some ""))))

namespace TextOps

variable (ops : TextOps)

def replaceAll (type : StringType) (args : ReplaceArgs) : List (Option String) :=
  match type with
  | .utf8View => args.rows.map ops.replaceViewRow
  | _ => args.rows.map ops.replaceRow

/-- The functions do not tell the encodings apart, and `LOWER` is folded right. -/
def EncodingFree (a b : StringType) (rows : List (Option String)) (args : ReplaceArgs)
    (literal : Option String) : Prop :=
  ops.lower a rows = ops.lower b rows ∧ ops.replaceAll a args = ops.replaceAll b args ∧
    ∀ ty ∈ [a, b], ops.lower ty [literal] = .ok [ops.lowerSimplify literal]

def IsLower (s : Option String) : Prop := s.map ops.toLowercase = s

def OnlyToNull (row : Option String × Option String × Option String) : Prop :=
  ∃ string p, row = (some string, some p, none)

variable {ops} {a b : StringType} {rows : List (Option String)} {args : ReplaceArgs}
  {literal : Option String}

lemma replaceAll_eq_iff : args.rows.map ops.replaceRow = args.rows.map ops.replaceViewRow ↔
    ∀ row ∈ args.rows, ¬ OnlyToNull row := by
  rw [map_inj_left]
  refine forall₂_congr fun row _ => ?_
  obtain ⟨_ | string, _ | pattern, _ | target⟩ := row <;>
    simp [replaceRow, replaceViewRow, OnlyToNull]

lemma lower_literal_iff (ty : StringType) : ops.lower ty [literal] =
    .ok [ops.lowerSimplify literal] ↔ ty = .utf8 ∨ ty = .utf8View ∧ ops.IsLower literal := by
  cases ty <;> simp [lower, lowerSimplify, IsLower, eq_comm]

/-! ### Main result -/

/-- **Two encodings are not told apart exactly if neither is `LargeUtf8` and, where one is
`Utf8View`, the literal is in lower case; and if they differ, then all texts are, and no row of
`REPLACE` has only a NULL for the third argument.** -/
theorem encodingFree_iff : ops.EncodingFree a b rows args literal ↔
    (∀ type ∈ [a, b], type = .utf8 ∨ type = .utf8View ∧ ops.IsLower literal) ∧
    (a ≠ b → (∀ s ∈ rows, ops.IsLower s) ∧ ∀ row ∈ args.rows, ¬ OnlyToNull row) := by
  have hr : rows.map (·.map ops.toLowercase) = rows ↔ ∀ s ∈ rows, ops.IsLower s := by
    conv_lhs => rw [← map_id rows, map_map, map_inj_left]
    rfl
  simp only [EncodingFree, lower_literal_iff]
  rw [← and_assoc, and_comm]
  refine and_congr_right fun ht => ?_
  obtain ⟨ha, hb⟩ := forall_mem_cons.mp ht
  replace hb := hb b mem_cons_self
  rcases ha with rfl | ⟨rfl, -⟩ <;> rcases hb with rfl | ⟨rfl, -⟩
  · simp
  · simp only [lower, replaceAll, Except.ok.injEq, hr, replaceAll_eq_iff, ne_eq, reduceCtorEq,
      not_false_eq_true, true_imp_iff]
  · simp only [lower, replaceAll, Except.ok.injEq, eq_comm (a := rows), hr,
      eq_comm (a := args.rows.map ops.replaceViewRow), replaceAll_eq_iff, ne_eq, reduceCtorEq,
      not_false_eq_true, true_imp_iff]
  · simp

end TextOps

def sampleOps : TextOps := ⟨toAsciiLowercase, fun s _ _ => s⟩

theorem not_encodingFree :
    ¬ sampleOps.EncodingFree .utf8 .utf8View [some "A"] ⟨[], [], none⟩ none := by
  rintro ⟨h, -⟩
  exact absurd (Except.ok.inj h) (by decide)

end Rustice
