import NicAutoswitch.Engine.Matcher

/-!
# Domain patterns (config/schema.rs, engine/matcher.rs)

The validation and the matcher take a pattern apart separately. Lengths are compared in
bytes, and an affix is proper exactly if it is shorter in bytes.
-/

namespace NicAutoswitch.Engine.Wildcards
open Schema RuleMatcher

/- One star, which is the first or the last character. -/
def OneEndStar (p : String) : Prop :=
  p.toList.count '*' = 1 ∧ (p.toList.head? = some '*' ∨ p.toList.getLast? = some '*')

/- What a pattern matches: everything, or what is longer than the rest and ends or begins
with it. -/
def Means (p d : String) : Prop :=
  p = "*" ∨ (∃ s, s ≠ "" ∧ p = "*" ++ s ∧ ∃ x, x ≠ "" ∧ d = x ++ s) ∨
    ∃ s, s ≠ "" ∧ p = s ++ "*" ∧ ∃ x, x ≠ "" ∧ d = s ++ x

/-! ### Texts -/

theorem toList_star_append (s : String) : ("*" ++ s).toList = '*' :: s.toList := by
  rw [String.toList_append]
  rfl

theorem toList_append_star (s : String) : (s ++ "*").toList = s.toList ++ ['*'] := by
  rw [String.toList_append]
  rfl

theorem star_append_inj {s s' : String} (h : "*" ++ s = "*" ++ s') : s = s' := by
  have ht := congrArg String.toList h
  rw [toList_star_append, toList_star_append] at ht
  exact String.toList_inj.mp (List.cons.inj ht).2

theorem append_star_inj {s s' : String} (h : s ++ "*" = s' ++ "*") : s = s' := by
  have ht := congrArg String.toList h
  rw [toList_append_star, toList_append_star] at ht
  exact String.toList_inj.mp (List.append_cancel_right ht)

/- A star at both ends of more than one character leaves one in the rest. -/
theorem star_mem_of_both {s s' : String} (hs : s ≠ "") (h : "*" ++ s = s' ++ "*") :
    '*' ∈ s.toList := by
  have ht := congrArg String.toList h
  rw [toList_star_append, toList_append_star] at ht
  have hne : s.toList ≠ [] := fun hn => hs (String.toList_eq_nil_iff.mp hn)
  have hlast := congrArg List.getLast? ht
  rw [List.getLast?_append, List.getLast?_cons, List.getLast?_eq_some_getLast hne] at hlast
  have hstar : s.toList.getLast hne = '*' := by simpa using hlast
  exact hstar ▸ List.getLast_mem hne

/- A star that ends several characters and is the only one does not begin them. -/
theorem head_ne_star {s : String} (hs : s ≠ "") (hstar : '*' ∉ s.toList) :
    (s ++ "*").toList.head? ≠ some '*' := by
  intro h
  obtain ⟨rest, hp⟩ := List.head?_eq_some_iff.mp h
  rw [toList_append_star] at hp
  cases hl : s.toList with
  | nil => exact hs (String.toList_eq_nil_iff.mp hl)
  | cons c cs =>
    rw [hl] at hp hstar
    exact hstar ((List.cons.inj hp).1 ▸ List.mem_cons_self)

theorem stripFirst_star (s : String) : stripFirst '*' ("*" ++ s) = some s := by
  unfold stripFirst
  rw [toList_star_append]
  simp only [List.head?_cons, if_true, List.tail_cons, String.ofList_toList]

theorem stripFirst_none {p : String} (h : p.toList.head? ≠ some '*') : stripFirst '*' p = none := by
  unfold stripFirst
  rw [if_neg h]

theorem stripLast_star (s : String) : stripLast '*' (s ++ "*") = some s := by
  unfold stripLast
  rw [toList_append_star]
  simp only [List.getLast?_append, List.getLast?_singleton, Option.some_or, if_true,
    List.dropLast_concat, String.ofList_toList]

theorem size_lt_append_left (x s : String) : s.utf8ByteSize < (x ++ s).utf8ByteSize ↔ x ≠ "" := by
  rw [String.utf8ByteSize_append, ne_eq, ← String.utf8ByteSize_eq_zero_iff]
  omega

theorem size_lt_append_right (s x : String) : s.utf8ByteSize < (s ++ x).utf8ByteSize ↔ x ≠ "" := by
  rw [String.utf8ByteSize_append, ne_eq, ← String.utf8ByteSize_eq_zero_iff]
  omega

theorem suffix_iff {s d : String} : s.toList <:+ d.toList ↔ ∃ x : String, d = x ++ s := by
  apply Iff.intro
  · rintro ⟨pre, h⟩
    refine ⟨String.ofList pre, String.toList_inj.mp ?_⟩
    rw [String.toList_append, String.toList_ofList, h]
  · rintro ⟨x, rfl⟩
    rw [String.toList_append]
    exact List.suffix_append _ _

theorem prefix_iff {s d : String} : s.toList <+: d.toList ↔ ∃ x : String, d = s ++ x := by
  apply Iff.intro
  · rintro ⟨post, h⟩
    refine ⟨String.ofList post, String.toList_inj.mp ?_⟩
    rw [String.toList_append, String.toList_ofList, h]
  · rintro ⟨x, rfl⟩
    rw [String.toList_append]
    exact List.prefix_append _ _

/-! ### The validation -/

/- The rest of the pattern has no star. -/
def Plain (p : String) : Prop := ∃ s, '*' ∉ s.toList ∧ (p = "*" ++ s ∨ p = s ++ "*")

theorem plain_iff_oneEndStar (p : String) : Plain p ↔ OneEndStar p := by
  unfold OneEndStar
  apply Iff.intro
  · rintro ⟨s, hs, rfl | rfl⟩
    · rw [toList_star_append, List.count_cons_self, List.count_eq_zero.mpr hs]
      exact ⟨rfl, Or.inl rfl⟩
    · rw [toList_append_star, List.count_append, List.count_eq_zero.mpr hs]
      exact ⟨rfl, Or.inr (by simp)⟩
  · rintro ⟨hcount, hfirst | hlast⟩
    · obtain ⟨rest, hp⟩ := List.head?_eq_some_iff.mp hfirst
      have hs : ("*" ++ String.ofList rest).toList = p.toList := by
        rw [toList_star_append, String.toList_ofList, hp]
      refine ⟨String.ofList rest, ?_, Or.inl (String.toList_inj.mp hs).symm⟩
      rw [hp, List.count_cons_self] at hcount
      rw [String.toList_ofList, ← List.count_eq_zero]
      omega
    · obtain ⟨rest, hp⟩ := List.getLast?_eq_some_iff.mp hlast
      have hs : (String.ofList rest ++ "*").toList = p.toList := by
        rw [toList_append_star, String.toList_ofList, hp]
      refine ⟨String.ofList rest, ?_, Or.inr (String.toList_inj.mp hs).symm⟩
      have hstar : List.count '*' ['*'] = 1 := rfl
      rw [hp, List.count_append, hstar] at hcount
      rw [String.toList_ofList, ← List.count_eq_zero]
      omega

theorem ensureNoInnerStar_ok {rest : List Char} {original : String} :
    ensureNoInnerStar rest original = .ok () ↔ '*' ∉ rest := by
  unfold ensureNoInnerStar
  by_cases h : '*' ∈ rest
  · rw [if_pos h]
    exact iff_of_false (fun he => by cases he) (not_not.mpr h)
  · rw [if_neg h]
    exact iff_of_true rfl h

theorem validateDomainPattern_ok (p : String) :
    validateDomainPattern p = .ok () ↔ OneEndStar p := by
  unfold validateDomainPattern
  by_cases hall : p = "*"
  · rw [if_pos hall, hall]
    exact iff_of_true rfl ⟨rfl, Or.inl rfl⟩
  · rw [if_neg hall]
    by_cases hfirst : p.toList.head? = some '*'
    · rw [if_pos hfirst, ensureNoInnerStar_ok]
      obtain ⟨rest, hp⟩ := List.head?_eq_some_iff.mp hfirst
      unfold OneEndStar
      rw [hp, List.tail_cons, List.count_cons_self, ← List.count_eq_zero]
      exact ⟨fun h => ⟨by omega, Or.inl rfl⟩, fun h => by omega⟩
    · rw [if_neg hfirst]
      by_cases hlast : p.toList.getLast? = some '*'
      · rw [if_pos hlast, ensureNoInnerStar_ok]
        obtain ⟨rest, hp⟩ := List.getLast?_eq_some_iff.mp hlast
        have hstar : List.count '*' ['*'] = 1 := rfl
        unfold OneEndStar
        rw [hp] at hlast ⊢
        rw [List.dropLast_concat, List.count_append, hstar, ← List.count_eq_zero]
        exact ⟨fun h => ⟨by omega, Or.inr hlast⟩, fun h => by omega⟩
      · rw [if_neg hlast]
        exact iff_of_false (fun he => by cases he) fun h => h.2.elim hfirst hlast

/-! ### The matcher -/

theorem matchesWildcard_leading {s : String} (hs : s ≠ "") (d : String) :
    matchesWildcard ("*" ++ s) d = true ↔ ∃ x, x ≠ "" ∧ d = x ++ s := by
  have hall : "*" ++ s ≠ "*" := fun h => hs (star_append_inj (h.trans rfl))
  have hne : ¬ s.toList.isEmpty = true := by
    rw [List.isEmpty_iff, String.toList_eq_nil_iff]
    exact hs
  unfold matchesWildcard
  rw [if_neg hall, stripFirst_star]
  simp only [if_neg hne, Bool.and_eq_true, decide_eq_true_eq, List.isSuffixOf_iff_suffix,
    suffix_iff]
  apply Iff.intro
  · rintro ⟨hlt, x, rfl⟩
    exact ⟨x, (size_lt_append_left x s).mp hlt, rfl⟩
  · rintro ⟨x, hx, rfl⟩
    exact ⟨(size_lt_append_left x s).mpr hx, x, rfl⟩

theorem matchesWildcard_trailing {s : String} (hs : s ≠ "") (hstar : '*' ∉ s.toList) (d : String) :
    matchesWildcard (s ++ "*") d = true ↔ ∃ x, x ≠ "" ∧ d = s ++ x := by
  have hall : s ++ "*" ≠ "*" := fun h => hs (append_star_inj (h.trans rfl))
  have hne : ¬ s.toList.isEmpty = true := by
    rw [List.isEmpty_iff, String.toList_eq_nil_iff]
    exact hs
  unfold matchesWildcard
  rw [if_neg hall, stripFirst_none (head_ne_star hs hstar), stripLast_star]
  simp only [if_neg hne, Bool.and_eq_true, decide_eq_true_eq, List.isPrefixOf_iff_prefix,
    prefix_iff]
  apply Iff.intro
  · rintro ⟨hlt, x, rfl⟩
    exact ⟨x, (size_lt_append_right s x).mp hlt, rfl⟩
  · rintro ⟨x, hx, rfl⟩
    exact ⟨(size_lt_append_right s x).mpr hx, x, rfl⟩

theorem matchesWildcard_means {p : String} (h : Plain p) (d : String) :
    matchesWildcard p d = true ↔ Means p d := by
  obtain ⟨s, hstar, hp⟩ := h
  by_cases hs : s = ""
  · have hall : p = "*" := by
      subst hs
      exact hp.elim id id
    exact iff_of_true (by rw [matchesWildcard, if_pos hall]) (Or.inl hall)
  · rcases hp with rfl | rfl
    · rw [matchesWildcard_leading hs]
      apply Iff.intro
      · intro hx
        exact Or.inr (Or.inl ⟨s, hs, rfl, hx⟩)
      · rintro (hall | ⟨s', hs', he, hx⟩ | ⟨s', hs', he, hx⟩)
        · exact absurd (star_append_inj (hall.trans rfl)) hs
        · exact star_append_inj he ▸ hx
        · exact absurd (star_mem_of_both hs he) hstar
    · rw [matchesWildcard_trailing hs hstar]
      apply Iff.intro
      · intro hx
        exact Or.inr (Or.inr ⟨s, hs, rfl, hx⟩)
      · rintro (hall | ⟨s', hs', he, hx⟩ | ⟨s', hs', he, hx⟩)
        · exact absurd (append_star_inj (hall.trans rfl)) hs
        · have hhead : (s ++ "*").toList.head? = some '*' := by
            rw [he, toList_star_append]
            rfl
          exact absurd hhead (head_ne_star hs hstar)
        · exact append_star_inj he ▸ hx

/- The validation accepts the patterns with one star, at an end, and the matcher gives each of
them its meaning. -/
theorem pattern_meaning (p : String) :
    (validateDomainPattern p = .ok () ↔ OneEndStar p) ∧
      (OneEndStar p → ∀ d, matchesWildcard p d = true ↔ Means p d) :=
  ⟨validateDomainPattern_ok p, fun h => matchesWildcard_means ((plain_iff_oneEndStar p).mpr h)⟩

theorem pattern_meaning_heals :
    (validateDomainPattern "heals-*" = .ok () ↔ OneEndStar "heals-*") ∧
      ∀ d, matchesWildcard "heals-*" d = true ↔ Means "heals-*" d :=
  ⟨(pattern_meaning "heals-*").1, (pattern_meaning "heals-*").2 ⟨rfl, Or.inr rfl⟩⟩

end NicAutoswitch.Engine.Wildcards
