/-
  `strstr` of the shim that replaces the C library's.

  A pointer is the bytes of its object from there on, so a string is followed by its terminator and
  by whatever the object holds behind it.  Reading on from the end of an object is undefined.  The
  search looks for the first character of the word, then compares the rest.  On terminated strings it
  is always defined, finds the first occurrence, and no byte behind either terminator matters.

  The log messages are left out.
-/
import Mathlib.Data.List.Infix

namespace Codina.Libc

abbrev Byte : Type := BitVec 8

/-! ## The program -/

/-- Nothing where the object ends before a terminator. -/
def strlen : List Byte → Option Nat
  | [] => none
  | c :: s => if c = 0 then some 0 else (strlen s).map (· + 1)

/-- Both strings are read up to the first difference, the terminator, or `n` bytes. -/
def strncmp : Nat → List Byte → List Byte → Option Int
  | 0, _, _ => some 0
  | n + 1, a :: s, b :: t =>
    if a ≠ b then some (a.toNat - b.toNat) else if a = 0 then some 0 else strncmp n s t
  | _ + 1, _, _ => none

/-- The two nested loops: `find` is the word without its first character `c`, and `len` its length. -/
def searchLoop (c : Byte) (find : List Byte) (len : Nat) : List Byte → Option (Option (List Byte))
  | [] => none
  | sc :: s =>
    if sc = 0 then some none
    else if sc ≠ c then searchLoop c find len s
    else
      match strncmp len s find with
      | none => none
      | some order => if order ≠ 0 then searchLoop c find len s else some (some (sc :: s))

/-- Nothing where it is undefined, and otherwise the pointer returned. -/
def strstr (s find : Option (List Byte)) : Option (Option (List Byte)) :=
  match s, find with
  | some s, some find =>
    match find with
    | [] => none
    | c :: find =>
      if c ≠ 0 then
        match strlen find with
        | none => none
        | some len => searchLoop c find len s
      else some (some s)
  | _, _ => some none

/-! ## What a search finds -/

/-- What a search of `text` for `word` is to return, with `after` behind the terminator of the text. -/
def Searched (word text after : List Byte) (result : Option (List Byte)) : Prop :=
  (result = none ∧ ¬ word <:+: text) ∨
  ∃ before rest, text = before ++ (word ++ rest) ∧ result = some (word ++ rest ++ 0 :: after) ∧
    ∀ k < before.length, ¬ word <+: text.drop k

variable {word text after after' : List Byte}

/-- A character where the word does not begin. -/
theorem Searched.skip {sc : Byte} {result : Option (List Byte)} (hnot : ¬ word <+: sc :: text)
    (h : Searched word text after result) : Searched word (sc :: text) after result := by
  rcases h with ⟨hnone, hnowhere⟩ | ⟨before, rest, rfl, hfound, hfirst⟩
  · refine .inl ⟨hnone, fun hin => ?_⟩
    rcases List.infix_cons_iff.mp hin with hpre | hlater
    · exact hnot hpre
    · exact hnowhere hlater
  · refine .inr ⟨sc :: before, rest, rfl, hfound, fun k hk => ?_⟩
    cases k with
    | zero => exact hnot
    | succ k => exact hfirst k (Nat.lt_of_succ_lt_succ hk)

theorem strlen_terminated : ∀ {word : List Byte}, 0 ∉ word → strlen (word ++ 0 :: after) = some word.length
  | [], _ => rfl
  | c :: word, h => by
    obtain ⟨hc, hrest⟩ := not_or.mp (mt List.mem_cons.mpr h)
    show (if c = 0 then some 0 else (strlen (word ++ 0 :: after)).map (· + 1)) = _
    rw [if_neg (Ne.symm hc), strlen_terminated hrest]
    rfl

/-- Different characters do not compare as equal. -/
theorem difference_ne_zero {a b : Byte} (h : a ≠ b) : (a.toNat : Int) - b.toNat ≠ 0 := by
  intro heq
  refine h (BitVec.eq_of_toNat_eq ?_)
  omega

/-- **Comparing** as many characters as the word has: equal where the text begins with it. -/
theorem strncmp_terminated : ∀ {word text : List Byte}, 0 ∉ word → 0 ∉ text →
    ∃ order, strncmp word.length (text ++ 0 :: after) (word ++ 0 :: after') = some order ∧
      (order = 0 ↔ word <+: text)
  | [], text, _, _ => ⟨0, rfl, iff_of_true rfl (List.nil_prefix ..)⟩
  | c :: word, [], hw, _ => by
    -- the terminator of the text differs from any character of the word
    have hc : (0 : Byte) ≠ c := fun heq => hw (heq ▸ List.mem_cons_self ..)
    refine ⟨(0 : Byte).toNat - c.toNat, if_pos hc, iff_of_false (difference_ne_zero hc) ?_⟩
    exact fun hpre => List.cons_ne_nil _ _ (List.prefix_nil.mp hpre)
  | c :: word, sc :: text, hw, ht => by
    obtain ⟨hsc, ht'⟩ := not_or.mp (mt List.mem_cons.mpr ht)
    obtain ⟨-, hw'⟩ := not_or.mp (mt List.mem_cons.mpr hw)
    show ∃ order, (if sc ≠ c then some ((sc.toNat : Int) - c.toNat) else if sc = 0 then some 0
      else strncmp word.length (text ++ 0 :: after) (word ++ 0 :: after')) = some order ∧ _
    by_cases hne : sc ≠ c
    · rw [if_pos hne]
      refine ⟨_, rfl, iff_of_false (difference_ne_zero hne) fun hpre => hne ?_⟩
      exact (List.cons_prefix_cons.mp hpre).1.symm
    · rw [if_neg hne, if_neg (Ne.symm hsc)]
      obtain rfl := not_not.mp hne
      obtain ⟨order, hcmp, hiff⟩ := strncmp_terminated hw' ht'
      refine ⟨order, hcmp, hiff.trans ⟨fun hpre => ?_, fun hpre => (List.cons_prefix_cons.mp hpre).2⟩⟩
      exact List.cons_prefix_cons.mpr ⟨rfl, hpre⟩

/-- The loops, from any place in the text. -/
theorem searchLoop_finds {c : Byte} (hw : 0 ∉ word) : ∀ {text : List Byte}, 0 ∉ text →
    ∃ result, searchLoop c (word ++ 0 :: after') word.length (text ++ 0 :: after) = some result ∧
      Searched (c :: word) text after result
  | [], _ => ⟨none, rfl, .inl ⟨rfl, fun hin => List.cons_ne_nil _ _ (List.infix_nil.mp hin)⟩⟩
  | sc :: text, ht => by
    obtain ⟨hsc, ht'⟩ := not_or.mp (mt List.mem_cons.mpr ht)
    obtain ⟨result, hloop, hrest⟩ := searchLoop_finds (c := c) hw ht'
    obtain ⟨order, hcmp, hiff⟩ : ∃ order,
        strncmp word.length (text ++ 0 :: after) (word ++ 0 :: after') = some order ∧ (order = 0 ↔ word <+: text) :=
      strncmp_terminated hw ht'
    rw [List.cons_append, searchLoop, if_neg (Ne.symm hsc)]
    rcases Decidable.em (sc = c) with rfl | hne
    · rw [if_neg (not_not.mpr rfl), hcmp]
      dsimp only
      rcases Decidable.em (order = 0) with hzero | hdiffer
      · rw [if_neg (not_not.mpr hzero)]
        obtain ⟨rest, rfl⟩ := hiff.mp hzero
        exact ⟨_, rfl, .inr ⟨[], rest, rfl, rfl, fun k hk => absurd hk (Nat.not_lt_zero k)⟩⟩
      · rw [if_pos hdiffer]
        refine ⟨result, hloop, hrest.skip fun hpre => hdiffer ?_⟩
        exact hiff.mpr (List.cons_prefix_cons.mp hpre).2
    · rw [if_pos hne]
      exact ⟨result, hloop, hrest.skip fun hpre => hne (List.cons_prefix_cons.mp hpre).1.symm⟩

/-- **`strstr`** finds the first occurrence, on any two terminated strings. -/
theorem strstr_finds (ht : 0 ∉ text) (hw : 0 ∉ word) :
    ∃ result, strstr (some (text ++ 0 :: after)) (some (word ++ 0 :: after')) = some result ∧
      Searched word text after result := by
  cases word with
  | nil => exact ⟨_, rfl, .inr ⟨[], text, rfl, rfl, fun k hk => absurd hk (Nat.not_lt_zero k)⟩⟩
  | cons c word =>
    obtain ⟨hc, hw'⟩ := not_or.mp (mt List.mem_cons.mpr hw)
    show ∃ result, (if c ≠ 0 then match strlen (word ++ 0 :: after') with
      | none => none
      | some len => searchLoop c (word ++ 0 :: after') len (text ++ 0 :: after)
      else some (some (text ++ 0 :: after))) = some result ∧ _
    rw [if_pos (Ne.symm hc), strlen_terminated hw']
    exact searchLoop_finds hw' ht

/-- `"nd"` in `"and"`. -/
theorem strstr_finds_and : ∃ result,
    strstr (some ([97, 110, 100] ++ 0 :: [7])) (some ([110, 100] ++ 0 :: [])) = some result ∧
      Searched [110, 100] [97, 110, 100] [7] result :=
  strstr_finds (by decide) (by decide)

end Codina.Libc
