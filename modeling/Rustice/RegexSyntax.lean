import Rustice.Regex

/-!
# The Text of a Regular Expression

A lexer turns the text to tokens, and a stack of open groups turns the tokens to an expression.
The lexer is a parameter: classes, escapes, inline modes and comments are its own affair. What
is known of it is that a caret before a text and a dollar after it leave the tokens of the text
alone.
-/

namespace Rustice

open List Option

structure RegexFlags where
  caseInsensitive : Bool
  multiLine : Bool
  dotMatchesNewLine : Bool

/-- Sets and assertions are those of the modes in force. -/
inductive RegexToken where
  | set (holds : Char → Bool)
  | look (holds : List Char → ℕ → Bool)
  | bar
  | opening (captures : Bool)
  | closing
  | repeated (min : ℕ) (more : Option ℕ)
  | lazily

def atStart (_ : List Char) (i : ℕ) : Bool := i = 0

def atEnd (s : List Char) (i : ℕ) : Bool := i = s.length

def atLineStart (s : List Char) (i : ℕ) : Bool := i = 0 || s[i - 1]? = some '\n'

def atLineEnd (s : List Char) (i : ℕ) : Bool := i = s.length || s[i]? = some '\n'

/-- `dollar` is the assertion that a `$` after a text would be, or nothing where the text ends in
a comment. -/
structure RegexLexer where
  lex : RegexFlags → List Char → Option (List RegexToken)
  dollar : RegexFlags → List Char → Option (List Char → ℕ → Bool)
  lex_anchored : ∀ flags text tokens, lex flags text = some tokens →
    lex flags ('^' :: text ++ ['$']) =
      some (.look (if flags.multiLine then atLineStart else atStart) :: tokens ++
        ((dollar flags text).map RegexToken.look).toList)
  dollar_length : ∀ flags text, ∀ holds ∈ dollar flags text, ∀ s, holds s s.length = true

/-- An open group, with its items in reverse. -/
structure RegexFrame where
  index : Option ℕ
  finished : List (List (Regex Char))
  items : List (Regex Char)

namespace RegexFrame

def push (frame : RegexFrame) (r : Regex Char) : RegexFrame :=
  { frame with items := r :: frame.items }

def regex (frame : RegexFrame) : Regex Char :=
  let r := Regex.branches frame.finished frame.items.reverse
  match frame.index with
  | some n => .group n r
  | none => r

def anchor (frame : RegexFrame) (r : Regex Char) : RegexFrame :=
  match frame.finished with
  | [] => { frame with items := frame.items ++ [r] }
  | branch :: finished => { frame with finished := (r :: branch) :: finished }

lemma push_anchor (fr : RegexFrame) (r r' : Regex Char) :
    (fr.anchor r).push r' = (fr.push r').anchor r := by
  obtain ⟨index, f, items⟩ := fr
  cases f with
  | nil => rfl
  | cons branch f => rfl

end RegexFrame

structure RegexBuilder where
  top : RegexFrame
  below : List RegexFrame
  groups : ℕ

namespace RegexBuilder

def start : RegexBuilder := ⟨⟨none, [], []⟩, [], 0⟩

def withTop (b : RegexBuilder) (top : RegexFrame) : RegexBuilder := { b with top := top }

def step (b : RegexBuilder) : RegexToken → Option RegexBuilder
  | .set holds => some (b.withTop (b.top.push (.set holds)))
  | .look holds => some (b.withTop (b.top.push (.look holds)))
  | .bar =>
    some (b.withTop
      { b.top with finished := b.top.finished ++ [b.top.items.reverse], items := [] })
  | .opening true => some ⟨⟨some (b.groups + 1), [], []⟩, b.top :: b.below, b.groups + 1⟩
  | .opening false => some ⟨⟨none, [], []⟩, b.top :: b.below, b.groups⟩
  | .closing =>
    match b.below with
    | frame :: below => some ⟨frame.push b.top.regex, below, b.groups⟩
    | [] => none
  | .repeated min more =>
    match b.top.items with
    | r :: rs => some (b.withTop { b.top with items := .rep min more true r :: rs })
    | [] => none
  | .lazily =>
    match b.top.items with
    | .rep min more _ r :: rs =>
      some (b.withTop { b.top with items := .rep min more false r :: rs })
    | _ => none

def run (b : RegexBuilder) (tokens : List RegexToken) : Option RegexBuilder := tokens.foldlM step b

def anchorLast (r : Regex Char) : List RegexFrame → List RegexFrame
  | [] => []
  | [frame] => [frame.anchor r]
  | frame :: below => frame :: anchorLast r below

def anchor (b : RegexBuilder) (r : Regex Char) : RegexBuilder :=
  match b.below with
  | [] => { b with top := b.top.anchor r }
  | _ :: _ => { b with below := anchorLast r b.below }

lemma step_anchor {b b' : RegexBuilder} {t : RegexToken} (r : Regex Char)
    (h : b.step t = some b') : (b.anchor r).step t = some (b'.anchor r) := by
  obtain ⟨⟨index, f, xs⟩, bl, groups⟩ := b
  cases t with
  | set holds => cases h; cases bl <;> cases f <;> rfl
  | look holds => cases h; cases bl <;> cases f <;> rfl
  | bar =>
    cases h
    cases bl with
    | cons frame bl => rfl
    | nil =>
      cases f with
      | cons branch f => rfl
      | nil => simp only [anchor, RegexFrame.anchor, step, withTop, nil_append,
          reverse_append, reverse_singleton, singleton_append]
  | opening captures => cases captures <;> cases h <;> cases bl <;> cases f <;> rfl
  | closing =>
    cases bl with
    | nil => cases h
    | cons frame bl =>
      cases h
      cases bl with
      | nil => exact congrArg (fun top => some (mk top [] groups)) (frame.push_anchor r _)
      | cons frame' bl => rfl
  | repeated min more =>
    cases xs with
    | nil => cases h
    | cons item xs => cases h; cases bl <;> cases f <;> rfl
  | lazily =>
    rw [step] at h
    split at h
    case h_2 => cases h
    case h_1 min more greedy item xs hi =>
      cases h
      cases hi
      cases bl <;> cases f <;> rfl

lemma run_anchor {b b' : RegexBuilder} {ts : List RegexToken} (r : Regex Char)
    (h : b.run ts = some b') : (b.anchor r).run ts = some (b'.anchor r) := by
  induction ts generalizing b with
  | nil =>
    cases h
    rfl
  | cons token ts ih =>
    simp only [run, foldlM_cons, bind, bind_eq_some_iff] at h ⊢
    obtain ⟨next, hn, hr⟩ := h
    exact ⟨_, step_anchor r hn, ih hr⟩

end RegexBuilder

open RegexBuilder

structure ParsedRegex where
  finished : List (List (Regex Char))
  last : List (Regex Char)

def ParsedRegex.regex (parsed : ParsedRegex) : Regex Char := .branches parsed.finished parsed.last

/-- The front joins the first branch and the back the last one. -/
def ParsedRegex.anchored (parsed : ParsedRegex) (front : Regex Char) (back : List (Regex Char)) :
    ParsedRegex :=
  match parsed.finished with
  | [] => ⟨[], front :: parsed.last ++ back⟩
  | branch :: finished => ⟨(front :: branch) :: finished, parsed.last ++ back⟩

namespace RegexLexer

variable (lexer lx : RegexLexer)

def parse (flags : RegexFlags) (text : List Char) : Option ParsedRegex := do
  let tokens ← lexer.lex flags text
  let b ← start.run tokens
  match b.below with
  | [] => some ⟨b.top.finished, b.top.items.reverse⟩
  | _ :: _ => none

lemma parse_anchored {fs : RegexFlags} {t : List Char} {p : ParsedRegex}
    (h : lx.parse fs t = some p) : lx.parse fs ('^' :: t ++ ['$']) =
      some (p.anchored (.look (if fs.multiLine then atLineStart else atStart))
        ((lx.dollar fs t).map Regex.look).toList) := by
  simp only [parse, bind, bind_eq_some_iff] at h
  obtain ⟨ts, ht, b, hb, hp⟩ := h
  have ha := run_anchor (.look (if fs.multiLine then atLineStart else atStart)) hb
  have hrun : start.run
      (.look (if fs.multiLine then atLineStart else atStart) :: ts ++
        ((lx.dollar fs t).map RegexToken.look).toList) =
      (b.anchor (.look (if fs.multiLine then atLineStart else atStart))).run
        ((lx.dollar fs t).map RegexToken.look).toList := by
    rw [run] at ha
    rw [run, run, cons_append, foldlM_cons]
    show foldlM _ _ _ = _
    rw [foldlM_append]
    exact congrArg (· >>= _) ha
  simp only [parse, lx.lex_anchored fs t ts ht, hrun, bind, bind_some]
  obtain ⟨⟨index, f, items⟩, bl, groups⟩ := b
  cases bl with
  | cons frame bl => cases hp
  | nil =>
    cases hp
    cases lx.dollar fs t <;> cases f <;> simp [anchor, RegexFrame.anchor,
      run, step, withTop, RegexFrame.push,
      ParsedRegex.anchored]

end RegexLexer

end Rustice
