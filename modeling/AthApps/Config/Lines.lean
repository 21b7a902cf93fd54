import Mathlib.Data.List.TakeWhile
import AthApps.Config.Rewrite

/-!
# Lines of a configuration text

What a line is, its tag and its value.  None of the functions on a line looks
behind its newline, so it does not matter to them what text comes after it.
-/

set_option autoImplicit false

namespace AthApps.Config

open AthApps.Lib List

def Ended (text : Bytes) : Prop := ∃ front, text = front ++ [newline]

def IsLine (line : Bytes) : Prop := ∃ front, line = front ++ [newline] ∧ newline ∉ front

def tagOf (line : Bytes) : Bytes := (skipWhite line).takeWhile fun c => !endsTag c

section Ends

variable {line rest : Bytes} {test : UInt8 → Bool}

theorem IsLine.ended (isLine : IsLine line) : Ended line := by
  obtain ⟨front, rfl, -⟩ := isLine
  exact ⟨front, rfl⟩

theorem IsLine.ne_nil (isLine : IsLine line) : line ≠ [] := by
  obtain ⟨front, rfl, -⟩ := isLine
  simp

theorem Ended.ne_nil (ended : Ended line) : line ≠ [] := by
  obtain ⟨front, rfl⟩ := ended
  simp

theorem Ended.of_cons {c : UInt8} (ended : Ended (c :: line)) (other : c ≠ newline) :
    Ended line := by
  obtain ⟨front, same⟩ := ended
  cases front with
  | nil =>
    simp only [nil_append, List.cons.injEq] at same
    exact absurd same.1 other
  | cons d front =>
    simp only [cons_append, List.cons.injEq] at same
    exact ⟨front, same.2⟩

theorem Ended.dropWhile (ended : Ended line) (stops : test newline = false) :
    Ended (line.dropWhile test) ∧ (line ++ rest).dropWhile test = line.dropWhile test ++ rest := by
  obtain ⟨front, rfl⟩ := ended
  induction front with
  | nil => simp [stops, Ended]
  | cons c front ih =>
    simp only [cons_append, dropWhile_cons]
    split
    · exact ih
    · exact ⟨⟨c :: front, rfl⟩, by simp⟩

theorem Ended.takeWhile (ended : Ended line) (stops : test newline = false) :
    (line ++ rest).takeWhile test = line.takeWhile test := by
  obtain ⟨front, rfl⟩ := ended
  induction front with
  | nil => simp [stops]
  | cons c front ih =>
    simp only [cons_append, takeWhile_cons]
    rw [ih]

theorem Ended.headD (ended : Ended line) : (line ++ rest).headD 0 = line.headD 0 := by
  cases line with
  | nil => exact absurd rfl ended.ne_nil
  | cons c line => rfl

theorem isWhite_newline : isWhite newline = false := by decide

theorem Ended.skipWhite (ended : Ended line) :
    Ended (skipWhite line) ∧ Config.skipWhite (line ++ rest) = Config.skipWhite line ++ rest :=
  ended.dropWhile isWhite_newline

theorem isGraph_newline : isGraph newline = false := by decide

theorem endsTag_newline : endsTag newline = true := by decide

end Ends

theorem lineSize_line {line : Bytes} (isLine : IsLine line) (rest : Bytes) :
    Session.lineSize (line ++ rest) = line.length := by
  obtain ⟨front, rfl, none⟩ := isLine
  induction front with
  | nil => simp [Session.lineSize]
  | cons c front ih =>
    simp only [mem_cons, not_or] at none
    rw [cons_append, cons_append, Session.lineSize, if_neg (Ne.symm none.1), ih none.2]
    rfl

theorem isLine_take {text : Bytes} (has : newline ∈ text) :
    IsLine (text.take (Session.lineSize text)) := by
  induction text with
  | nil => cases has
  | cons c text ih =>
    rw [Session.lineSize]
    split
    next same => exact ⟨[], by simp [same], by simp⟩
    next other =>
      rcases mem_cons.mp has with same | has
      · exact absurd same.symm other
      obtain ⟨front, split, none⟩ := ih has
      refine ⟨c :: front, by rw [take_succ_cons, split]; rfl, ?_⟩
      simp only [mem_cons, not_or]
      exact ⟨Ne.symm other, none⟩

theorem tagLoop_eq (t1 t2 : Bytes) :
    tagLoop t1 t2 = decide ((t1.takeWhile fun c => !endsTag c) =
      t2.takeWhile fun c => !endsTag c) := by
  have ends : endsTag 0 = true := by decide
  induction t1 generalizing t2 with
  | nil =>
    cases t2 with
    | nil => simp [tagLoop, ends]
    | cons c2 t2 => cases last : endsTag c2 <;> simp [tagLoop, last]
  | cons c1 t1 ih =>
    cases t2 with
    | nil => cases last : endsTag c1 <;> simp [tagLoop, last]
    | cons c2 t2 =>
      rw [tagLoop, ih]
      by_cases same : c1 = c2
      · subst same
        cases last : endsTag c1 <;> simp [last]
      · cases first : endsTag c1 <;> cases second : endsTag c2 <;> simp [first, second, same]

theorem tagEqual_iff (t1 t2 : Bytes) :
    tagEqual t1 t2 = true ↔ tagOf t1 ≠ [] ∧ tagOf t1 = tagOf t2 := by
  unfold tagEqual tagOf
  generalize skipWhite t1 = u1
  generalize skipWhite t2 = u2
  simp only [tagLoop_eq]
  cases u1 with
  | nil => simp [show endsTag 0 = true by decide]
  | cons c u1 => cases last : endsTag c <;> simp [last]

theorem tagOf_tagOf (line : Bytes) : tagOf (tagOf line) = tagOf line := by
  unfold tagOf
  cases skipped : skipWhite line with
  | nil => rfl
  | cons c rest =>
    cases last : endsTag c with
    | true => simp [last, skipWhite]
    | false =>
      have graph : isWhite c = false := by
        simp only [endsTag, Bool.or_eq_false_iff, Bool.not_eq_false'] at last
        simp [isWhite, last.2]
      rw [show skipWhite ((c :: rest).takeWhile fun c => !endsTag c) =
        (c :: rest).takeWhile fun c => !endsTag c by simp [skipWhite, last, graph]]
      exact takeWhile_idem

theorem tagDup_eq (line : Bytes) :
    tagDup line = if tagOf line = [] then none else some (tagOf line) := rfl

section Local

variable {line : Bytes}

theorem tagOf_append (ended : Ended line) (rest : Bytes) :
    tagOf (line ++ rest) = tagOf line := by
  obtain ⟨later, skips⟩ := @Ended.skipWhite line rest ended
  rw [tagOf, skips, later.takeWhile (by simp [endsTag_newline])]
  rfl

theorem tagEqual_append (tag : Bytes) (ended : Ended line) (rest : Bytes) :
    tagEqual tag (line ++ rest) = tagEqual tag line := by
  apply Bool.eq_iff_iff.mpr
  rw [tagEqual_iff, tagEqual_iff, tagOf_append ended]

theorem tagValue_append (ended : Ended line) (rest : Bytes) :
    tagValue (line ++ rest) = (tagValue line).map (· ++ rest) ∧
      ∀ value, tagValue line = some value → Ended value := by
  unfold tagValue
  obtain ⟨ended, skips⟩ := @Ended.skipWhite line rest ended
  rw [skips]
  generalize skipWhite line = line at ended ⊢
  obtain ⟨ended, drops⟩ := @Ended.dropWhile line rest
    (fun c => c ≠ equalSign && c ≠ hash && isGraph c) ended (by decide)
  simp only [drops]
  generalize line.dropWhile (fun c => c ≠ equalSign && c ≠ hash && isGraph c) = line at ended ⊢
  obtain ⟨ended, skips⟩ := @Ended.skipWhite line rest ended
  rw [skips]
  generalize skipWhite line = line at ended ⊢
  cases line with
  | nil => exact absurd rfl ended.ne_nil
  | cons c line =>
    simp only [cons_append, headD_cons, tail_cons]
    by_cases equal : c = equalSign
    · have ended := ended.of_cons (by rw [equal]; decide)
      obtain ⟨ended, skips⟩ := @Ended.skipWhite line rest ended
      simp only [skips, ended.headD, equal, ne_eq, not_true_eq_false, if_false]
      by_cases graph : isGraph ((skipWhite line).headD 0) = true
      · simp only [graph, if_true]
        refine ⟨rfl, ?_⟩
        rintro value ⟨⟩
        exact ended
      · simp only [graph]
        exact ⟨rfl, fun value given => by cases given⟩
    · simp [equal]

theorem isTwin_append (tag : Bytes) (ended : Ended line) (rest : Bytes) :
    isTwin tag (line ++ rest) = isTwin tag line := by
  unfold isTwin
  obtain ⟨ended, drops⟩ := @Ended.dropWhile line rest (fun c => c = hash) ended (by decide)
  simp only [drops, tagEqual_append _ ended, (tagValue_append ended rest).1, Option.isSome_map]

end Local

end AthApps.Config
