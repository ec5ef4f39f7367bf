import TypedApi.Graph.Shape
import Mathlib.Data.List.Nodup
import Mathlib.Data.List.Perm.Subperm
import Mathlib.Order.Bounds.Basic
import Mathlib.Tactic.Common
/-!
Safe names.

A name is safe when it can stand in a generated module: it is not empty, does
not start with a digit, and is not reserved. `escape` makes any text safe, and
`deconflict` keeps it so while it makes it free as well: among the counters
that it tries there is one more than there are names taken, so one of them is
free, and no reserved name ends in a digit.

Names made of words are identifiers besides: ASCII letters, digits and
underscores. That is what the display names of variants are.
-/

set_option autoImplicit false

/-! # Safe and free names -/

namespace TypedApi.Name

/-- A name that can stand in a generated module. -/
structure Safe (name : String) : Prop where
  start : ∃ c rest, name.toList = c :: rest ∧ Text.isDigit c = false
  free : isReserved name = false

/-! ## Escaping -/

/-- No reserved name ends in an underscore or in a digit. -/
theorem last_of_isReserved {name : String} {c : Char} (h : isReserved name = true)
    (hc : name.toList.getLast? = some c) : c ≠ '_' ∧ c.isDigit = false := by
  have hall : ∀ word ∈ keywords ++ imported,
      word.toList.getLast?.all (fun d => d ≠ '_' && !d.isDigit) = true := by decide
  have hmem : name ∈ keywords ++ imported := by
    simpa [isReserved] using h
  have hlast := hall name hmem
  rw [hc] at hlast
  simpa using hlast

/-- A name with an underscore at its end is not reserved. -/
theorem isReserved_append_underscore (name : String) : isReserved (name ++ "_") = false := by
  by_contra h
  have hlast : (name ++ "_").toList.getLast? = some '_' := by simp
  exact (last_of_isReserved (eq_true_of_ne_false h) hlast).1 rfl

/-- **Escaping makes every text safe.** -/
theorem safe_escape (name : String) : Safe (escape name) := by
  unfold escape
  split
  · exact ⟨⟨'_', [], rfl, by decide⟩, by decide⟩
  · rename_i c rest hname
    extract_lets started
    -- a digit at the start gets an underscore in front
    have hstart : ∃ d tail, started.toList = d :: tail ∧ Text.isDigit d = false := by
      simp only [started]
      split
      · exact ⟨'_', name.toList, by simp, by decide⟩
      · rename_i hc
        exact ⟨c, rest, hname, eq_false_of_ne_true hc⟩
    obtain ⟨d, tail, hd, hdigit⟩ := hstart
    clear_value started
    split
    · refine ⟨⟨d, tail ++ ['_'], ?_, hdigit⟩, isReserved_append_underscore _⟩
      rw [String.toList_append, hd]
      rfl
    · rename_i hfree
      exact ⟨⟨d, tail, hd, hdigit⟩, eq_false_of_ne_true hfree⟩

/-! ## Counters -/

/-- A counter ends in a digit. -/
theorem exists_last_toString (n : Nat) : ∃ front c, (toString n).toList = front ++ [c] ∧
    c.isDigit = true := by
  have hlist : (toString n).toList = Nat.toDigits 10 n := Nat.toList_repr
  rcases List.eq_nil_or_concat (Nat.toDigits 10 n) with h | ⟨front, c, h⟩
  · exact absurd h Nat.toDigits_ne_nil
  · rw [List.concat_eq_append] at h
    have hmem : c ∈ Nat.toDigits 10 n := by rw [h]; simp
    exact ⟨front, c, hlist.trans h, Nat.isDigit_of_mem_toDigits (by decide) (by decide) hmem⟩

/-- A counter after a safe name leaves it safe. -/
theorem Safe.append_toString {name : String} (h : Safe name) (n : Nat) :
    Safe (name ++ toString n) := by
  obtain ⟨c, rest, hc, hdigit⟩ := h.start
  refine ⟨⟨c, rest ++ (toString n).toList, by simp [hc], hdigit⟩, ?_⟩
  obtain ⟨front, d, hd, hlast⟩ := exists_last_toString n
  by_contra hres
  -- a reserved name has no digit at its end, but this one has
  have hget : (name ++ toString n).toList.getLast? = some d := by
    rw [String.toList_append, hd, ← List.append_assoc, List.getLast?_append]
    rfl
  have hnone := (last_of_isReserved (eq_true_of_ne_false hres) hget).2
  rw [hlast] at hnone
  cases hnone

/-- Two counters after one name give two names. -/
theorem append_toString_injective (base : String) :
    Function.Injective fun n : Nat => base ++ toString n := by
  intro n k h
  have hlist : Nat.toDigits 10 n = Nat.toDigits 10 k := by
    have h' := congrArg String.toList h
    simp only [String.toList_append, List.append_cancel_left_eq] at h'
    simpa only [toString, Nat.toList_repr] using h'
  rw [← Nat.ofDigitChars_ten_toDigits (n := n), hlist, Nat.ofDigitChars_ten_toDigits]

/-- What the search for a free counter ends with. -/
theorem exists_firstFree_eq (taken : List String) (base : String) (suffix fuel : Nat) :
    ∃ n : Nat, firstFree taken base suffix fuel = base ++ toString n := by
  induction fuel generalizing suffix with
  | zero => exact ⟨suffix, rfl⟩
  | succ fuel ih =>
    rw [firstFree]
    split
    · exact ih (suffix + 1)
    · exact ⟨suffix, rfl⟩

/-- If the search ends with a name that is taken, so are all the names that it tried. -/
theorem mem_of_firstFree_mem {taken : List String} {base : String} {suffix fuel : Nat}
    (h : firstFree taken base suffix fuel ∈ taken) :
    ∀ k ≤ fuel, base ++ toString (suffix + k) ∈ taken := by
  induction fuel generalizing suffix with
  | zero =>
    intro k hk
    obtain rfl : k = 0 := by omega
    exact h
  | succ fuel ih =>
    rw [firstFree] at h
    split at h
    · rename_i hsuffix
      intro k hk
      cases k with
      | zero => simpa using hsuffix
      | succ k =>
        have := ih h k (by omega)
        rwa [show suffix + 1 + k = suffix + (k + 1) by omega] at this
    · rename_i hfree
      exact absurd h (by simpa using hfree)

/-- **The name that the search ends with is free**: it tries one name more than are taken, and they
are all different. -/
theorem firstFree_notMem (taken : List String) (base : String) :
    firstFree taken base 1 taken.length ∉ taken := by
  intro h
  have hall := mem_of_firstFree_mem h
  have hnodup : ((List.range (taken.length + 1)).map fun k => base ++ toString (1 + k)).Nodup := by
    refine List.Nodup.map (fun a b hab => ?_) List.nodup_range
    have := append_toString_injective base hab
    omega
  -- were the last name taken, so would be more different names than there are
  have hsubset : ((List.range (taken.length + 1)).map fun k => base ++ toString (1 + k))
      ⊆ taken := by
    intro name hname
    obtain ⟨k, hk, rfl⟩ := List.mem_map.mp hname
    exact hall k (by have := List.mem_range.mp hk; omega)
  have hlength := (hnodup.subperm hsubset).length_le
  simp only [List.length_map, List.length_range] at hlength
  omega

/-- **A deconflicted name is not taken.** -/
theorem deconflict_notMem (name : String) (taken : List String) :
    deconflict name taken ∉ taken := by
  rw [deconflict]
  split
  · exact firstFree_notMem taken _
  · rename_i hfree
    simpa using hfree

/-- **A deconflicted name is safe.** -/
theorem safe_deconflict (name : String) (taken : List String) : Safe (deconflict name taken) := by
  rw [deconflict]
  split
  · obtain ⟨n, hn⟩ := exists_firstFree_eq taken (escape name) 1 taken.length
    rw [hn]
    exact (safe_escape name).append_toString n
  · exact safe_escape name

end TypedApi.Name

/-! # The name that is free

A name that is taken gets the least counter that makes it free. The search for it
goes up from one and stops at the first counter that does; it cannot pass more
counters than there are names taken besides the escaped name itself. What it ends
with is safe and free, so it would be chosen again as it is.
-/

namespace TypedApi.Name

variable {name base : String} {taken : List String}

/-- **A safe name is escaped already.** -/
theorem Safe.escape_eq (h : Safe name) : escape name = name := by
  obtain ⟨c, rest, hname, hdigit⟩ := h.start
  simp only [escape, hname, hdigit, Bool.false_eq_true, if_false, h.free]

/-- The search ends with a counter that it has come to, and every counter before that one gives a
name that is taken. -/
theorem exists_firstFree_counter (taken : List String) (base : String) (suffix fuel : Nat) :
    ∃ k, suffix ≤ k ∧ firstFree taken base suffix fuel = base ++ toString k ∧
      ∀ j, suffix ≤ j → j < k → base ++ toString j ∈ taken := by
  induction fuel generalizing suffix with
  | zero => exact ⟨suffix, Nat.le_refl _, rfl, fun j hj hlt => by omega⟩
  | succ fuel ih =>
    rw [firstFree]
    split
    · rename_i htaken
      obtain ⟨k, hk, heq, hbefore⟩ := ih (suffix + 1)
      refine ⟨k, by omega, heq, fun j hj hlt => ?_⟩
      rcases Nat.eq_or_lt_of_le hj with rfl | hj
      · simpa using htaken
      · exact hbefore j hj hlt
    · exact ⟨suffix, Nat.le_refl _, rfl, fun j hj hlt => by omega⟩

/-- A counter changes every name. -/
theorem append_toString_ne (base : String) (k : Nat) : base ++ toString k ≠ base := by
  intro h
  obtain ⟨front, c, hlast, _⟩ := exists_last_toString k
  have hlength := congrArg (fun s : String => s.toList.length) h
  simp only [String.toList_append, hlast, List.length_append, List.length_singleton] at hlength
  omega

/-- If a name is taken, and with all counters below some counter too, then there are at least that
many names taken. -/
theorem counter_le_length {k : Nat} (hbase : base ∈ taken)
    (hbefore : ∀ j, 1 ≤ j → j < k → base ++ toString j ∈ taken) : k ≤ taken.length := by
  rcases Nat.eq_zero_or_pos k with rfl | hk
  · exact Nat.zero_le _
  -- the name itself and with each of those counters, all of them different
  have hnodup : (base :: (List.range (k - 1)).map fun j => base ++ toString (j + 1)).Nodup := by
    refine List.nodup_cons.mpr ⟨fun hmem => ?_, List.nodup_range.map fun a b hab => ?_⟩
    · obtain ⟨j, _, hj⟩ := List.mem_map.mp hmem
      exact append_toString_ne base _ hj
    · have := append_toString_injective base hab
      omega
  have hsubset : (base :: (List.range (k - 1)).map fun j => base ++ toString (j + 1)) ⊆ taken := by
    refine List.cons_subset.mpr ⟨hbase, fun other hother => ?_⟩
    obtain ⟨j, hj, rfl⟩ := List.mem_map.mp hother
    have hj := List.mem_range.mp hj
    exact hbefore (j + 1) (by omega) (by omega)
  have hlength := (hnodup.subperm hsubset).length_le
  simp only [List.length_cons, List.length_map, List.length_range] at hlength
  omega

/-- **The name that is chosen** is free and safe. It is the escaped name if that is free; otherwise it
is the escaped name with the least counter from one on that makes it free, and that counter is at
most the count of names taken. Escaping an escaped name changes nothing, and neither does choosing
the chosen name again. -/
theorem deconflict_least (name : String) (taken : List String) :
    (deconflict name taken ∉ taken ∧ Safe (deconflict name taken)) ∧
    (escape name ∉ taken → deconflict name taken = escape name) ∧
    (escape name ∈ taken → ∃ k ≤ taken.length,
      IsLeast {j | 1 ≤ j ∧ escape name ++ toString j ∉ taken} k ∧
        deconflict name taken = escape name ++ toString k) ∧
    escape (escape name) = escape name ∧
    deconflict (deconflict name taken) taken = deconflict name taken := by
  have hfree := deconflict_notMem name taken
  have hsafe := safe_deconflict name taken
  have hkept : ∀ {n : String}, escape n ∉ taken → deconflict n taken = escape n := by
    intro n hn
    simp [deconflict, hn]
  refine ⟨⟨hfree, hsafe⟩, hkept, fun htaken => ?_, (safe_escape name).escape_eq, ?_⟩
  · have hsearch : deconflict name taken = firstFree taken (escape name) 1 taken.length := by
      simp [deconflict, htaken]
    obtain ⟨k, hk, heq, hbefore⟩ :=
      exists_firstFree_counter taken (escape name) 1 taken.length
    rw [hsearch, heq] at hfree
    refine ⟨k, counter_le_length htaken hbefore, ⟨⟨hk, hfree⟩, fun j hj => ?_⟩,
      hsearch.trans heq⟩
    by_contra hlt
    exact hj.2 (hbefore j hj.1 (by omega))
  · have hescaped := hsafe.escape_eq
    rw [hkept (by rwa [hescaped]), hescaped]

end TypedApi.Name
