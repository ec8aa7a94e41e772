import Mathlib.Tactic

/-!
# Lists of assignments

A list of words is read as assignments: a word assigns to a name when the name and a separator are
its beginning, and the first word that assigns to a name gives its value. Overriding some names
drops the words that assign to them and puts one assignment for each at the end. Names do not
contain the separator, so an override is invisible at every other name.
-/

namespace Assignments

variable {α : Type*} {sep : α} {name other word value : List α} {words : List (List α)}

def Assigns (sep : α) (name word : List α) : Prop := name ++ [sep] <+: word

def assignment (sep : α) (name value : List α) : List α := name ++ sep :: value

lemma assigns_assignment (sep : α) (name value : List α) :
    Assigns sep name (assignment sep name value) :=
  ⟨value, by simp [assignment]⟩

/-- A word cannot assign to two names that differ. -/
lemma Assigns.not_other (h : Assigns sep name word) (hname : sep ∉ name)
    (hne : ¬ Assigns sep name (other ++ [sep])) : ¬ Assigns sep other word := by
  intro hother
  rcases List.prefix_or_prefix_of_prefix h hother with hprefix | hprefix
  · exact hne hprefix
  · rcases List.prefix_concat_iff.mp hprefix with heq | hshort
    · exact hne (heq ▸ List.prefix_refl _)
    · exact hname (hshort.subset (by simp))

/-- Names without the separator are told apart. -/
lemma not_assigns_of_ne (hother : sep ∉ other) (hne : name ≠ other) :
    ¬ Assigns sep name (other ++ [sep]) := by
  intro h
  rcases List.prefix_concat_iff.mp h with heq | hshort
  · exact hne (List.append_cancel_right heq)
  · exact hother (hshort.subset (by simp))

/-! ### Lookup -/

variable [DecidableEq α]

instance (sep : α) (name word : List α) : Decidable (Assigns sep name word) := by
  unfold Assigns
  infer_instance

/-- The value of a name: what follows the separator in the first word that assigns to it. -/
def lookup (sep : α) (words : List (List α)) (name : List α) : Option (List α) :=
  (words.find? fun word => decide (Assigns sep name word)).map fun word =>
    word.drop (name.length + 1)

lemma lookup_cons (word : List α) (words : List (List α)) (name : List α) :
    lookup sep (word :: words) name =
      if Assigns sep name word then some (word.drop (name.length + 1))
      else lookup sep words name := by
  by_cases h : Assigns sep name word
  · simp [lookup, h]
  · simp [lookup, h]

lemma lookup_append (words words' : List (List α)) (name : List α) :
    lookup sep (words ++ words') name = (lookup sep words name).or (lookup sep words' name) := by
  induction words with
  | nil => simp [lookup]
  | cons word words ih =>
    rw [List.cons_append, lookup_cons, lookup_cons, ih]
    split_ifs
    · rfl
    · rfl

lemma lookup_eq_none (h : ∀ word ∈ words, ¬ Assigns sep name word) :
    lookup sep words name = none := by
  simpa [lookup] using h

/-- Words that do not assign to the name may be dropped. -/
lemma lookup_filter {keep : List α → Bool} (h : ∀ word, Assigns sep name word → keep word = true) :
    lookup sep (words.filter keep) name = lookup sep words name := by
  induction words with
  | nil => rfl
  | cons word words ih =>
    by_cases hword : Assigns sep name word
    · rw [List.filter_cons_of_pos (h word hword), lookup_cons, lookup_cons, if_pos hword,
        if_pos hword]
    · rw [lookup_cons, if_neg hword, ← ih]
      by_cases hkeep : keep word = true
      · rw [List.filter_cons_of_pos hkeep, lookup_cons, if_neg hword]
      · rw [List.filter_cons_of_neg hkeep]

lemma lookup_assignment (name value : List α) :
    lookup sep (assignment sep name value :: words) name = some value := by
  rw [lookup_cons, if_pos (assigns_assignment sep name value)]
  simp [assignment]

lemma lookup_assignment_of_ne (hname : sep ∉ name) (hne : ¬ Assigns sep name (other ++ [sep])) :
    lookup sep (assignment sep name value :: words) other = lookup sep words other := by
  rw [lookup_cons, if_neg ((assigns_assignment sep name value).not_other hname hne)]

/-! ### Override -/

/-- The words that assign to none of the names. -/
def keeps (sep : α) (replaced : List (List α × List α)) (word : List α) : Bool :=
  replaced.all fun r => !decide (Assigns sep r.1 word)

/-- The words without those that assign to the replaced names, and the new assignments. -/
def override (sep : α) (words : List (List α)) (replaced : List (List α × List α)) :
    List (List α) :=
  words.filter (keeps sep replaced) ++ replaced.map fun r => assignment sep r.1 r.2

variable {replaced : List (List α × List α)}

/-- Other names keep their value. -/
theorem lookup_override_other (hsep : ∀ r ∈ replaced, sep ∉ r.1)
    (hother : ∀ r ∈ replaced, ¬ Assigns sep r.1 (name ++ [sep])) :
    lookup sep (override sep words replaced) name = lookup sep words name := by
  have hkept : lookup sep (words.filter (keeps sep replaced)) name = lookup sep words name := by
    refine lookup_filter fun word hword => ?_
    simp only [keeps, List.all_eq_true, Bool.not_eq_true', decide_eq_false_iff_not]
    intro r hr hassigns
    exact hassigns.not_other (hsep r hr) (hother r hr) hword
  have hnew : lookup sep (replaced.map fun r => assignment sep r.1 r.2) name = none := by
    refine lookup_eq_none fun word hword => ?_
    obtain ⟨r, hr, rfl⟩ := List.mem_map.mp hword
    exact (assigns_assignment sep r.1 r.2).not_other (hsep r hr) (hother r hr)
  rw [override, lookup_append, hkept, hnew, Option.or_none]

/-- A replaced name has its new value. -/
theorem lookup_override_self (hsep : ∀ r ∈ replaced, sep ∉ r.1)
    (hnodup : (replaced.map Prod.fst).Nodup) (hmem : (name, value) ∈ replaced) :
    lookup sep (override sep words replaced) name = some value := by
  have hdropped : lookup sep (words.filter (keeps sep replaced)) name = none := by
    refine lookup_eq_none fun word hword => ?_
    have hkeeps := (List.mem_filter.mp hword).2
    simp only [keeps, List.all_eq_true, Bool.not_eq_true', decide_eq_false_iff_not] at hkeeps
    exact hkeeps (name, value) hmem
  rw [override, lookup_append, hdropped, Option.none_or]
  clear hdropped
  induction replaced with
  | nil => cases hmem
  | cons r replaced ih =>
    rw [List.map_cons, List.nodup_cons] at hnodup
    rw [List.map_cons]
    rcases List.mem_cons.mp hmem with rfl | hmem
    · exact lookup_assignment name value
    · have hne : r.1 ≠ name := by
        rintro rfl
        exact hnodup.1 (List.mem_map.mpr ⟨_, hmem, rfl⟩)
      have hname : sep ∉ name := hsep (name, value) (List.mem_cons_of_mem r hmem)
      rw [lookup_assignment_of_ne (hsep r List.mem_cons_self) (not_assigns_of_ne hname hne)]
      exact ih (fun r hr => hsep r (List.mem_cons_of_mem _ hr)) hnodup.2 hmem

end Assignments
