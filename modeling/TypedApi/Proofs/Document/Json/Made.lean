import TypedApi.Document.Json.Reader
import TypedApi.Proofs.Document.Layered
import TypedApi.Proofs.Text.Numeral
import Mathlib.Algebra.Group.Nat.Defs
import Mathlib.Data.List.TakeWhile
import Mathlib.Tactic.Common
/-!
What is read from JSON.

A reader makes words, numbers and texts, and out of these arrays and objects. An
integer has no more digits than a numeral may have, and an object is stored field by
field under texts. What holds of all of these, and is kept by arrays and objects,
holds of every document that is read.
-/

set_option autoImplicit false

namespace TypedApi.Document.Json

variable {P : Document → Prop} {d : Document} {cs rest : List Char}

/-- A property of documents that is kept by all that a reader does. -/
structure Kept (P : Document → Prop) : Prop where
  word : ∀ w ∈ words, P w.2
  float : ∀ x, P (.float x)
  int : ∀ n : Int, n.natAbs < 10 ^ Text.digitLimit → P (.int n)
  text : ∀ s, P (.text s)
  array : ∀ items, (∀ x ∈ items, P x) → P (.array items)
  object : ∀ fields : List (Document × Document),
    (∀ q ∈ fields, (∃ s, q.1 = .text s) ∧ P q.2) → P (.ofFields fields)

/-- Digits spell a number with no more digits. -/
theorem digitsValue_lt (h : ∀ c ∈ cs, isDigit c = true) : digitsValue cs < 10 ^ cs.length := by
  have hvalues : ∀ d ∈ cs.map fun c => c.toNat - 48, d < 10 := by
    intro d hd
    obtain ⟨c, hc, rfl⟩ := List.mem_map.mp hd
    have hdigit := h c hc
    simp only [isDigit, Bool.and_eq_true, decide_eq_true_eq, Char.le_def,
      UInt32.le_iff_toNat_le] at hdigit
    have hnine : c.toNat ≤ 57 := hdigit.2
    omega
  have hlt := Text.digitsNumber_lt hvalues
  rwa [Text.digitsNumber, List.foldl_map, List.length_map] at hlt

/-- The digits before a point or an exponent are digits. -/
theorem isDigit_of_wholeDigits? {ds : List Char} (h : wholeDigits? cs = some (ds, rest)) :
    ∀ c ∈ ds, isDigit c = true := by
  unfold wholeDigits? at h
  split at h
  · cases h
    exact List.forall_mem_singleton.mpr (by decide)
  · split at h
    · cases h
      exact fun c hc => List.mem_takeWhile_imp hc
    · cases h
  · cases h

theorem exists_of_map_ok {α β ε : Type} {f : α → β} {e : Except ε α} {b : β}
    (h : e.map f = .ok b) : ∃ a, e = .ok a ∧ f a = b := by
  cases e with
  | ok a => exact ⟨a, rfl, by cases h; rfl⟩
  | error _ => cases h

/-- An integer has no more digits than it may have. -/
theorem Kept.integer (hP : Kept P) {negative : Bool} {ds : List Char}
    (hds : ∀ c ∈ ds, isDigit c = true) (h : integer negative ds = .ok d) : P d := by
  unfold Json.integer at h
  split at h
  · rename_i hlimit
    cases h
    have hlt : digitsValue ds < 10 ^ Text.digitLimit :=
      Nat.lt_of_lt_of_le (digitsValue_lt hds) (Nat.pow_le_pow_right (by decide) hlimit)
    refine hP.int _ ?_
    split
    · rwa [Int.natAbs_neg, Int.natAbs_natCast]
    · rwa [Int.natAbs_natCast]
  · cases h

/-- A number is a float, or an integer with no more digits than it may have. -/
theorem Kept.unsignedNumber (hP : Kept P) {negative : Bool}
    (h : unsignedNumber negative cs = .ok (d, rest)) : P d := by
  unfold Json.unsignedNumber at h
  cases hdigits : wholeDigits? cs with
  | none => rw [hdigits] at h; cases h
  | some found =>
    obtain ⟨ds, after⟩ := found
    rw [hdigits] at h
    dsimp only at h
    revert h
    cases fraction? after with
    | some fraction =>
      rintro ⟨⟩
      exact hP.float _
    | none =>
      dsimp only
      cases exponent? after with
      | some exponent =>
        rintro ⟨⟩
        exact hP.float _
      | none =>
        intro h
        obtain ⟨x, hx, heq⟩ := exists_of_map_ok h
        cases heq
        exact hP.integer (isDigit_of_wholeDigits? hdigits) hx

/-- What a reader makes, by the fuel that it has. -/
theorem Kept.of_value (hP : Kept P) (fuel : Nat) :
    (∀ room cs d rest, value room fuel cs = .ok (d, rest) → P d) ∧
    (∀ room read cs ds rest, (∀ x ∈ read, P x) → items room fuel read cs = .ok (ds, rest) →
      ∀ x ∈ ds, P x) ∧
    (∀ room read cs fs rest, (∀ q ∈ read, (∃ s, q.1 = .text s) ∧ P q.2) →
      fields room fuel read cs = .ok (fs, rest) → ∀ q ∈ fs, (∃ s, q.1 = .text s) ∧ P q.2) := by
  induction fuel with
  | zero =>
    refine ⟨fun room cs d rest h => ?_, fun room read cs ds rest _ h => ?_,
      fun room read cs fs rest _ h => ?_⟩
    · rw [value] at h; cases h
    · rw [items] at h; cases h
    · rw [fields] at h; cases h
  | succ fuel ih =>
    obtain ⟨ihvalue, ihitems, ihfields⟩ := ih
    refine ⟨fun room cs d rest h => ?_, fun room read cs ds rest hread h => ?_,
      fun room read cs fs rest hread h => ?_⟩
    · rw [value.eq_def] at h
      dsimp only at h
      split at h
      · obtain ⟨⟨s, r⟩, _, heq⟩ := exists_of_map_ok h
        cases heq
        exact hP.text s
      · split at h
        · cases h
        · split at h
          · cases h
            exact hP.object [] (by simp)
          · obtain ⟨⟨fs, r⟩, hfields, heq⟩ := exists_of_map_ok h
            cases heq
            exact hP.object fs (ihfields _ _ _ _ _ (by simp) hfields)
      · split at h
        · cases h
        · split at h
          · cases h
            exact hP.array [] (by simp)
          · obtain ⟨⟨is, r⟩, hitems, heq⟩ := exists_of_map_ok h
            cases heq
            exact hP.array is (ihitems _ _ _ _ _ (by simp) hitems)
      · split at h
        · rename_i reading hword
          cases h
          obtain ⟨w, hw, heq⟩ := Option.map_eq_some_iff.mp hword
          cases heq
          exact hP.word w (List.mem_of_find?_eq_some hw)
        · split at h
          · exact hP.unsignedNumber h
          · exact hP.unsignedNumber h
    · rw [items.eq_def] at h
      dsimp only at h
      split at h
      · cases h
      · rename_i v r hv
        have hv := ihvalue _ _ _ _ hv
        split at h
        · cases h
          exact fun x hx => (List.mem_cons.mp (List.mem_reverse.mp hx)).elim (· ▸ hv) (hread x)
        · exact ihitems _ _ _ _ _ (List.forall_mem_cons.mpr ⟨hv, hread⟩) h
        · cases h
    · rw [fields.eq_def] at h
      dsimp only at h
      split at h
      · split at h
        · cases h
        · rename_i key r _
          split at h
          · split at h
            · cases h
            · rename_i v r' hv
              have hnew : ∀ q ∈ (.text key, v) :: read, (∃ s, q.1 = .text s) ∧ P q.2 :=
                List.forall_mem_cons.mpr ⟨⟨⟨key, rfl⟩, ihvalue _ _ _ _ hv⟩, hread⟩
              split at h
              · cases h
                exact fun q hq => hnew q (List.mem_reverse.mp hq)
              · exact ihfields _ _ _ _ _ hnew h
              · cases h
          · cases h
      · cases h

/-- **What a reader keeps holds of every document that is read.** -/
theorem Kept.of_read (hP : Kept P) {text : String} (h : read text = .ok d) : P d := by
  unfold read at h
  dsimp only at h
  split at h
  · rename_i hvalue
    split at h
    · cases h
      exact (hP.of_value _).1 _ _ _ _ hvalue
    · cases h
  · cases h

/-! ## Keys -/

/-- Storing a value under a text keeps the keys distinct texts. -/
theorem textKeys_putField (fields : List (Document × Document)) (key : String) (x : Document) :
    textKeys (putField fields (.text key) x) =
      if some key ∈ textKeys fields then textKeys fields else textKeys fields ++ [some key] := by
  induction fields with
  | nil => rfl
  | cons p rest ih =>
    obtain ⟨k, y⟩ := p
    have hk : k.isText key = true ↔ k.text? = some key := by
      cases k <;> simp [isText, text?]
    rw [putField, sameKey_text]
    by_cases hkey : k.isText key = true
    · rw [if_pos hkey]
      have hmem : some key ∈ textKeys ((k, y) :: rest) := by
        rw [← hk.mp hkey]
        exact List.mem_cons_self
      rw [if_pos hmem]
      rfl
    · have hne : some key ≠ k.text? := fun heq => hkey (hk.mpr heq.symm)
      have hcons : ∀ fs : List (Document × Document), textKeys ((k, y) :: fs) =
        k.text? :: textKeys fs := fun _ => rfl
      have hmem : some key ∈ k.text? :: textKeys rest ↔ some key ∈ textKeys rest :=
        List.mem_cons.trans (or_iff_right hne)
      rw [if_neg hkey, hcons, hcons, ih, ite_congr (propext hmem) (fun _ => rfl) (fun _ => rfl)]
      split <;> rfl

theorem areTextKeyed_putField {fields : List (Document × Document)} (key : String) (x : Document)
    (h : areTextKeyed fields = true) : areTextKeyed (putField fields (.text key) x) = true := by
  rw [areTextKeyed, Bool.and_eq_true, Bool.not_eq_true', List.contains_eq_mem,
    decide_eq_false_iff_not, decide_eq_true_eq] at h ⊢
  rw [textKeys_putField]
  split
  · exact h
  · rename_i hnew
    refine ⟨?_, List.nodup_append.mpr ⟨h.2, List.nodup_singleton _, ?_⟩⟩
    · simpa using h.1
    · intro a ha b hb heq
      rw [List.mem_singleton.mp hb] at heq
      exact hnew (heq ▸ ha)

theorem fieldsHaveTextKeys_putField {fields : List (Document × Document)} (key x : Document)
    (h : fieldsHaveTextKeys fields = true) (hx : x.hasTextKeys = true) :
    fieldsHaveTextKeys (putField fields key x) = true := by
  induction fields with
  | nil => rw [putField, fieldsHaveTextKeys, hx]; rfl
  | cons p rest ih =>
    obtain ⟨k, y⟩ := p
    rw [fieldsHaveTextKeys, Bool.and_eq_true] at h
    rw [putField]
    split
    · rw [fieldsHaveTextKeys, hx, h.2]; rfl
    · rw [fieldsHaveTextKeys, h.1, ih h.2]; rfl

/-- Fields that are stored under texts have distinct texts as keys. -/
theorem hasTextKeys_ofFields {fields : List (Document × Document)}
    (h : ∀ q ∈ fields, (∃ s, q.1 = .text s) ∧ q.2.hasTextKeys = true) :
    (ofFields fields).hasTextKeys = true := by
  have hstored : areTextKeyed (fields.foldl (fun acc p => putField acc p.1 p.2) []) = true ∧
      fieldsHaveTextKeys (fields.foldl (fun acc p => putField acc p.1 p.2) []) = true := by
    refine List.foldlRecOn (motive := fun stored => areTextKeyed stored = true ∧
      fieldsHaveTextKeys stored = true) fields _ ⟨rfl, rfl⟩ fun stored ih q hq => ?_
    obtain ⟨⟨key, hkey⟩, hx⟩ := h q hq
    rw [hkey]
    exact ⟨areTextKeyed_putField key q.2 ih.1, fieldsHaveTextKeys_putField _ q.2 ih.2 hx⟩
  rw [ofFields, hasTextKeys, hstored.1, hstored.2]
  rfl

/-- **The objects of a document that is read have distinct texts as keys.** -/
theorem hasTextKeys_of_read {text : String} (h : read text = .ok d) : d.hasTextKeys = true := by
  refine Kept.of_read (P := fun d => d.hasTextKeys = true) ⟨?_, fun _ => rfl, fun _ _ => rfl,
    fun _ => rfl, fun items hitems => ?_, fun fields hfields => hasTextKeys_ofFields hfields⟩ h
  · decide
  · rw [hasTextKeys]
    induction items with
    | nil => rfl
    | cons x items ih =>
      obtain ⟨hx, hrest⟩ := List.forall_mem_cons.mp hitems
      rw [itemsHaveTextKeys, hx, ih hrest]
      rfl

/-! ## Depth -/

/-- With one bracket more than there is room for, reading stops at the last one. -/
theorem value_brackets (room fuel : Nat) (h : 2 * room < fuel) :
    value room fuel (List.replicate (room + 1) '[' ++ rest) = .error .tooDeep := by
  obtain ⟨fuel, rfl⟩ := Nat.exists_eq_add_one.mpr (Nat.zero_lt_of_lt h)
  induction room generalizing fuel with
  | zero => rw [value.eq_def]; rfl
  | succ room ih =>
    -- one step takes a bracket, and one comes to what is inside of it
    obtain ⟨fuel, rfl⟩ : ∃ k, fuel = k + 2 := ⟨fuel - 2, by omega⟩
    have hitems : items room (fuel + 2) [] (List.replicate (room + 1) '[' ++ rest) =
        .error .tooDeep := by
      rw [items, ih fuel (by omega)]
    calc value (room + 1) (fuel + 3) ('[' :: (List.replicate (room + 1) '[' ++ rest))
      _ = (items room (fuel + 2) [] (List.replicate (room + 1) '[' ++ rest)).map
            fun found => (array found.1, found.2) := by rw [value.eq_def]; rfl
      _ = .error .tooDeep := by rw [hitems]; rfl

/-- **A text that opens one array too many** is nested too deep. -/
theorem read_brackets :
    read (String.ofList (List.replicate (maxDepth + 1) '[')) = .error .tooDeep := by
  have hvalue := @value_brackets [] maxDepth (2 * (maxDepth + 1) + 1) (by omega)
  rw [List.append_nil] at hvalue
  have hspace : skipSpace (List.replicate (maxDepth + 1) '[') =
      List.replicate (maxDepth + 1) '[' := rfl
  rw [read, String.toList_ofList, List.length_replicate, hspace, hvalue]

end TypedApi.Document.Json
