import Mathlib.Data.List.Basic
import RespWire.Proofs.Text.Codec

/-!
# Options

A word with the argument behind it, which may be left out together. The word tells whether it is
there, so options of different words can be told apart one after the other.
-/

namespace RespWire.Encoding

variable {word word' : String} {a b : Option Bytes} {rest rest' : List Bytes}

/-- The word and the argument behind it, if there is one. -/
def option (word : String) (arg : Option Bytes) : List Bytes :=
  arg.elim [] fun a => [Utf8.encode word, a]

lemma option_none (word : String) : option word none = [] := rfl

lemma option_some (word : String) (arg : Bytes) :
    option word (some arg) = [Utf8.encode word, arg] := rfl

lemma head?_option_ne (h : word' ≠ word) :
    (option word' a).head? ≠ some (Utf8.encode word) := by
  cases a with
  | none => exact nofun
  | some a =>
    rw [option_some, List.head?_cons, ne_eq, Option.some.injEq]
    exact Utf8.encode_injective.ne h

/-- The argument and what is behind it can be told if that does not begin with the word. -/
lemma option_append_inj (h : rest.head? ≠ some (Utf8.encode word))
    (h' : rest'.head? ≠ some (Utf8.encode word)) :
    option word a ++ rest = option word b ++ rest' ↔ a = b ∧ rest = rest' := by
  cases a with
  | none =>
    cases b with
    | none => simp [option_none]
    | some b =>
      refine ⟨fun heq => absurd ?_ h, nofun⟩
      rw [option_none, List.nil_append] at heq
      rw [heq]
      rfl
  | some a =>
    cases b with
    | none =>
      refine ⟨fun heq => absurd ?_ h', nofun⟩
      rw [option_none, List.nil_append] at heq
      rw [← heq]
      rfl
    | some b => simp [option_some]

lemma option_inj : option word a = option word b ↔ a = b := by
  have h : option word a ++ [] = option word b ++ [] ↔ a = b ∧ ([] : List Bytes) = [] :=
    option_append_inj nofun nofun
  simpa using h

lemma length_option (word : String) (a : Option Bytes) :
    (option word a).length = 0 ∨ (option word a).length = 2 := by
  cases a with
  | none => exact .inl rfl
  | some a => exact .inr rfl

lemma nil_notMem_option (hword : word ≠ "") (ha : a ≠ some []) : [] ∉ option word a := by
  cases a with
  | none => exact List.not_mem_nil
  | some a =>
    have ha' : a ≠ [] := fun h => ha (congrArg some h)
    have hword' : Utf8.encode word ≠ [] := mt Utf8.encode_eq_nil_iff.1 hword
    simp [option_some, hword'.symm, ha'.symm]

end RespWire.Encoding
