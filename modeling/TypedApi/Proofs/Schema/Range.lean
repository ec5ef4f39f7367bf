import TypedApi.Schema.Bounds
import TypedApi.Proofs.Build.Run
import Mathlib.Tactic.Common
/-!
The range of a bounded integer.

What a schema declares on one side of a range is stated here on its own: an
inclusive bound, and either a flag that makes it exclusive or an exclusive bound
besides. The reader keeps one bound for each side, puts the end of the width in
place of a bound that the width does not have, and moves it one step inward if it
is exclusive.

The two agree on the integers of the width exactly where a side fits. Four kinds
of sides do not: an exclusive bound beyond the near end, where the step inward is
taken from the end; one beside an inclusive bound that says more, which is
dropped; a flag without a bound, where the step is taken as well; and a bound
beyond the far end, which is taken for the near one. Without these the range holds
exactly the integers of the width that the schema admits.

The ends themselves are integers of the width, but for a bound that is the far end
and exclusive: the step from there leads out of the width.
-/

set_option autoImplicit false

namespace TypedApi

/-! ## What is declared -/

/-- The integer that a value is, however it is written. -/
def Document.integral? : Document → Option Int
  | .int n => some n
  | .float x => x.toInt?
  | _ => none

/-- What an exclusive keyword declares: whether the inclusive bound is exclusive, or a bound of its
own. -/
inductive Exclusive where
  | flag (on : Bool)
  | bound (value : Int)
deriving DecidableEq, Repr

/-- What a schema declares on one side of a range. -/
structure Side where
  inclusive : Option Int
  exclusive : Exclusive
deriving DecidableEq, Repr

/-- The integers of a width. -/
def IntegerWidth.Holds (width : IntegerWidth) (x : Int) : Prop :=
  width.low ≤ x ∧ x ≤ width.high

namespace Side

/-- The inclusive bound that a keyword declares, if it is absent, null or an integer. -/
def inclusive? : Option Document → Option (Option Int)
  | none => some none
  | some .null => some none
  | some d => d.integral?.map some

/-- What an exclusive keyword declares, if it is absent, a Boolean or an integer. -/
def exclusive? : Option Document → Option Exclusive
  | none => some (.flag false)
  | some (.bool on) => some (.flag on)
  | some d => d.integral?.map .bound

/-- The side that two keywords of a schema declare. -/
def declared? (schema : Document) (inclusive exclusive : String) : Option Side := do
  return ⟨← inclusive? (schema.find? inclusive), ← exclusive? (schema.find? exclusive)⟩

/-- Whether an integer is admitted by a side of minima. -/
def Above (s : Side) (x : Int) : Prop :=
  match s.exclusive with
  | .flag on => ∀ b, s.inclusive = some b → if on then b < x else b ≤ x
  | .bound n => n < x ∧ ∀ b, s.inclusive = some b → b ≤ x

/-- Whether an integer is admitted by a side of maxima. -/
def Below (s : Side) (x : Int) : Prop :=
  match s.exclusive with
  | .flag on => ∀ b, s.inclusive = some b → if on then x < b else x ≤ b
  | .bound n => x < n ∧ ∀ b, s.inclusive = some b → x ≤ b

/-- Whether a side of minima means what is read of it, for integers from `low` to `high`. A flag
needs a bound; a bound must not lie above, and an exclusive one not below; and an exclusive bound
must leave nothing for the inclusive one to say. If it lies below all the same, the range begins
right after `low`, which happens to be what an inclusive bound may say. -/
def FitsAbove (low high : Int) (s : Side) : Prop :=
  match s.exclusive with
  | .flag on =>
    (s.inclusive = none → on = false) ∧
      ∀ b, s.inclusive = some b → b ≤ high ∧ (on = true → low ≤ b)
  | .bound n =>
    (low ≤ n ∧ n ≤ high ∧ ∀ b, s.inclusive = some b → b ≤ n + 1 ∨ n = high) ∨
      (n < low ∧ s.inclusive = some (low + 1))

/-- Whether a side of maxima means what is read of it. -/
def FitsBelow (low high : Int) (s : Side) : Prop :=
  match s.exclusive with
  | .flag on =>
    (s.inclusive = none → on = false) ∧
      ∀ b, s.inclusive = some b → low ≤ b ∧ (on = true → b ≤ high)
  | .bound n =>
    (low ≤ n ∧ n ≤ high ∧ ∀ b, s.inclusive = some b → n ≤ b + 1 ∨ n = low) ∨
      (high < n ∧ s.inclusive = some (high - 1))

/-- The one bound that is read for a side. -/
def read (s : Side) : Bound :=
  match s.exclusive with
  | .flag on => ⟨s.inclusive, on⟩
  | .bound n => ⟨some n, true⟩

/-- A side seen from the other end. -/
def mirror (s : Side) : Side where
  inclusive := s.inclusive.map (- ·)
  exclusive :=
    match s.exclusive with
    | .flag on => .flag on
    | .bound n => .bound (-n)

end Side

/-- Whether a range stands for two sides: of the integers of the width, it holds those that both
sides admit. -/
def Represents (width : IntegerWidth) (lower upper : Int) (minimum maximum : Side) : Prop :=
  ∀ x, width.Holds x → ((lower ≤ x ∧ x ≤ upper) ↔ (minimum.Above x ∧ maximum.Below x))

/-! ## What is read -/

namespace Bound

/-- An integer is read from a value that is one. -/
theorem integer_of_integral? {keyword : String} {d : Document} {n : Int}
    (h : d.integral? = some n) : integer keyword d = .ok (some n) := by
  cases d with
  | int k =>
    cases h
    rfl
  | float x =>
    rw [integer, show x.toInt? = some n from h]
  | _ => cases h

/-- An inclusive bound is read as it is declared. -/
theorem integer_of_inclusive? {keyword : String} {o : Option Document} {bound : Option Int}
    (h : Side.inclusive? o = some bound) : integer keyword (o.getD .null) = .ok bound := by
  unfold Side.inclusive? at h
  split at h
  · cases h
    rfl
  · cases h
    rfl
  · obtain ⟨n, hn, rfl⟩ := Option.map_eq_some_iff.mp h
    exact integer_of_integral? hn

/-- **What two keywords declare is read as one bound.** -/
theorem read_of_declared? {schema : Document} {inclusive exclusive : String} {s : Side}
    (h : Side.declared? schema inclusive exclusive = some s) :
    read schema inclusive exclusive = .ok s.read := by
  obtain ⟨bound, hbound, h⟩ := Option.bind_eq_some_iff.mp h
  obtain ⟨e, he, h⟩ := Option.bind_eq_some_iff.mp h
  cases h
  rw [read, integer_of_inclusive? hbound]
  cases hfind : schema.find? exclusive with
  | none =>
    rw [hfind] at he
    cases he
    rfl
  | some d =>
    rw [hfind] at he
    cases d with
    | bool on =>
      cases he
      rfl
    -- an exclusive keyword that is no Boolean is the bound
    | int k =>
      cases he
      rfl
    | float x =>
      obtain ⟨n, hn, rfl⟩ := Option.map_eq_some_iff.mp he
      have hread : integer exclusive (.float x) = .ok (some n) := integer_of_integral? hn
      simp only [bind, Except.bind, hread]
      rfl
    | _ => cases he

/-- Where a range between two ends begins for a bound: at the bound, or at the end if the bound is
not between them. -/
def start (low high : Int) (b : Bound) : Int :=
  let inner :=
    match b.value with
    | some n => if low ≤ n ∧ n ≤ high then n else low
    | none => low
  if b.exclusive then inner + 1 else inner

/-- A bound seen from the other end. -/
def mirror (b : Bound) : Bound :=
  ⟨b.value.map (- ·), b.exclusive⟩

variable {low high n : Int} {on : Bool}

theorem start_none : start low high ⟨none, on⟩ = if on then low + 1 else low :=
  rfl

theorem start_of_inside (h : low ≤ n ∧ n ≤ high) :
    start low high ⟨some n, on⟩ = if on then n + 1 else n := by
  simp only [start, if_pos h]

theorem start_of_outside (h : ¬(low ≤ n ∧ n ≤ high)) :
    start low high ⟨some n, on⟩ = if on then low + 1 else low := by
  simp only [start, if_neg h]

end Bound

namespace IntegerWidth

theorem low_lt_high (width : IntegerWidth) : width.low < width.high := by
  cases width <;> decide

theorem bounded_injective {width width' : IntegerWidth} {l u l' u' : Int}
    (h : width.bounded l u = width'.bounded l' u') : width = width' ∧ l = l' ∧ u = u' := by
  cases width <;> cases width' <;> cases h <;> exact ⟨rfl, rfl, rfl⟩

end IntegerWidth

/-- **The range of a bounded kind** begins where it does for the minimum, and ends where it would
begin for the maximum if both were seen from the other end. -/
theorem Scalar.range_of_ofBounds {width width' : IntegerWidth} {minimum maximum : Bound}
    {bounded : Bool} {lower upper : Int}
    (h : (ofBounds width minimum maximum bounded).scalar = width'.bounded lower upper) :
    width' = width ∧ lower = minimum.start width.low width.high ∧
      upper = -maximum.mirror.start (-width.high) (-width.low) := by
  unfold ofBounds at h
  split at h
  · cases width <;> cases width' <;> cases h
  · split at h
    · obtain ⟨rfl, rfl, rfl⟩ := IntegerWidth.bounded_injective h
      obtain ⟨a, on⟩ := minimum
      obtain ⟨b, on'⟩ := maximum
      refine ⟨rfl, ?_, ?_⟩
      · cases a <;> simp [Bound.within, Bound.start]
      · cases b with
        | none =>
          cases on'
          · simp [Bound.within, Bound.start, Bound.mirror]
          · simp [Bound.within, Bound.start, Bound.mirror]
            omega
        | some b =>
          by_cases hb : width.low ≤ b ∧ b ≤ width.high
          · rw [Bound.mirror, Option.map_some, Bound.start_of_inside (by omega)]
            cases on'
            · simp [Bound.within, hb]
            · simp [Bound.within, hb]
              omega
          · rw [Bound.mirror, Option.map_some, Bound.start_of_outside (by omega)]
            cases on'
            · simp [Bound.within]
              omega
            · simp [Bound.within]
              omega
    · cases width <;> cases width' <;> cases h

/-! ## Where the two agree -/

namespace Side

variable {low high : Int}

/-- An inclusive bound, exclusive or not, must not lie beyond the far end, and an exclusive one not
beyond the near end either. -/
theorem start_inclusive_iff (hlt : low < high) (b : Int) (on : Bool) :
    (∀ x, low ≤ x → x ≤ high →
      (Bound.start low high ⟨some b, on⟩ ≤ x ↔ if on then b < x else b ≤ x)) ↔
      b ≤ high ∧ (on = true → low ≤ b) := by
  by_cases hb : low ≤ b ∧ b ≤ high
  · rw [Bound.start_of_inside hb]
    refine ⟨fun _ => ⟨hb.2, fun _ => hb.1⟩, fun _ x _ _ => ?_⟩
    cases on
    · simp
    · simp only [if_true]
      omega
  · rw [Bound.start_of_outside hb]
    constructor
    · intro h
      have hlow := h low (by omega) (by omega)
      have hhigh := h high (by omega) (by omega)
      cases on
      · simp only [Bool.false_eq_true, if_false] at hhigh
        exact ⟨by omega, nofun⟩
      · simp only [if_true] at hlow hhigh
        omega
    · rintro ⟨hhigh, hlow⟩ x hx hx'
      cases on
      · simp only [Bool.false_eq_true, if_false]
        omega
      · have := hlow rfl
        omega

/-- An exclusive bound must be an integer of the width that covers the inclusive one. -/
theorem start_exclusive_iff (hlt : low < high) (inclusive : Option Int) (n : Int) :
    (∀ x, low ≤ x → x ≤ high →
      (Bound.start low high ⟨some n, true⟩ ≤ x ↔ n < x ∧ ∀ b, inclusive = some b → b ≤ x)) ↔
      (low ≤ n ∧ n ≤ high ∧ ∀ b, inclusive = some b → b ≤ n + 1 ∨ n = high) ∨
        (n < low ∧ inclusive = some (low + 1)) := by
  by_cases hn : low ≤ n ∧ n ≤ high
  · rw [Bound.start_of_inside hn, if_pos rfl]
    constructor
    · intro h
      refine .inl ⟨hn.1, hn.2, fun b hb => ?_⟩
      by_contra hfar
      -- the integer right after the exclusive bound is in the range
      have := ((h (n + 1) (by omega) (by omega)).mp (by omega)).2 b hb
      omega
    · rintro (⟨_, _, hcovered⟩ | ⟨hlow, _⟩) x _ _
      · refine ⟨fun hx => ⟨by omega, fun b hb => ?_⟩, fun hx => by omega⟩
        have := hcovered b hb
        omega
      · omega
  · rw [Bound.start_of_outside hn, if_pos rfl]
    constructor
    · intro h
      have hhigh := (h high (by omega) (by omega)).mp (by omega)
      have hnext := (h (low + 1) (by omega) (by omega)).mp (by omega)
      -- the low end is not in the range, so something must forbid it
      have hlow : ¬(n < low ∧ ∀ b, inclusive = some b → b ≤ low) := by
        intro hall
        have := (h low (by omega) (by omega)).mpr hall
        omega
      refine .inr ⟨by omega, ?_⟩
      cases inclusive with
      | none => exact (hlow ⟨by omega, nofun⟩).elim
      | some b =>
        have hb := hnext.2 b rfl
        have hb' : ¬b ≤ low := fun hle => hlow ⟨by omega, by simpa using hle⟩
        rw [show b = low + 1 by omega]
    · rintro (⟨hlow, hhigh, _⟩ | ⟨hlow, rfl⟩) x hx hx'
      · omega
      · simp only [Option.some.injEq, forall_eq']
        omega

/-- **A side of minima fits exactly if the range begins where it should.** -/
theorem start_iff (hlt : low < high) (s : Side) :
    (∀ x, low ≤ x → x ≤ high → (s.read.start low high ≤ x ↔ s.Above x)) ↔ s.FitsAbove low high := by
  obtain ⟨inclusive, on | n⟩ := s
  · cases inclusive with
    | none =>
      simp only [read, Bound.start_none, FitsAbove, Above]
      constructor
      · intro h
        have hlow := (h low (by omega) (by omega)).mpr nofun
        refine ⟨fun _ => ?_, nofun⟩
        cases on
        · rfl
        · rw [if_pos rfl] at hlow
          omega
      · rintro ⟨hon, _⟩ x hx _
        rw [hon trivial, if_neg (by simp)]
        exact ⟨fun _ => nofun, fun _ => hx⟩
    | some b =>
      have hfits : (⟨some b, .flag on⟩ : Side).FitsAbove low high ↔
          b ≤ high ∧ (on = true → low ≤ b) := by
        simp [FitsAbove]
      rw [hfits, ← start_inclusive_iff hlt b on]
      simp only [read, Above, Option.some.injEq, forall_eq']
  · exact start_exclusive_iff hlt inclusive n

/-! ## The other end -/

theorem read_mirror (s : Side) : s.mirror.read = s.read.mirror := by
  obtain ⟨inclusive, on | n⟩ := s <;> rfl

theorem above_mirror (s : Side) (x : Int) : s.mirror.Above (-x) ↔ s.Below x := by
  obtain ⟨inclusive, on | n⟩ := s
  · cases on <;> cases inclusive <;> simp [Above, Below, mirror]
  · cases inclusive <;> simp [Above, Below, mirror]

theorem fitsAbove_mirror (s : Side) : s.mirror.FitsAbove (-high) (-low) ↔ s.FitsBelow low high := by
  obtain ⟨inclusive, on | n⟩ := s
  · cases inclusive <;> simp [FitsAbove, FitsBelow, mirror]
  · cases inclusive with
    | none =>
      simp [FitsAbove, FitsBelow, mirror]
      omega
    | some b =>
      simp [FitsAbove, FitsBelow, mirror]
      omega

/-- **A side of maxima fits exactly if the range ends where it should.** -/
theorem stop_iff (hlt : low < high) (s : Side) :
    (∀ x, low ≤ x → x ≤ high → (x ≤ -s.read.mirror.start (-high) (-low) ↔ s.Below x)) ↔
      s.FitsBelow low high := by
  rw [← fitsAbove_mirror, ← start_iff (by omega) s.mirror, read_mirror]
  constructor
  · intro h x hx hx'
    have hx := h (-x) (by omega) (by omega)
    rw [← above_mirror, Int.neg_neg] at hx
    rw [← hx]
    constructor <;> omega
  · intro h x hx hx'
    have hx := h (-x) (by omega) (by omega)
    rw [above_mirror] at hx
    rw [← hx]
    constructor <;> omega

end Side

/-! ## Schemas -/

namespace Scalar

/-- **A bounded kind has the range that its schema declares**: the integers of the width that lie in
it are those that both sides admit, if both sides fit. Each end of it is where it should be exactly
if its side fits. -/
theorem range_represents {schema : Document} {bounded : Bool} {reading : IntegerReading}
    {width : IntegerWidth} {lower upper : Int} {minimum maximum : Side}
    (hread : ofInteger schema bounded = .ok reading)
    (hkind : reading.scalar = width.bounded lower upper)
    (hminimum : Side.declared? schema "minimum" "exclusiveMinimum" = some minimum)
    (hmaximum : Side.declared? schema "maximum" "exclusiveMaximum" = some maximum) :
    IntegerWidth.ofFormat ((schema.find? "format").getD .null) = .ok width ∧
    (minimum.FitsAbove width.low width.high → maximum.FitsBelow width.low width.high →
      Represents width lower upper minimum maximum) ∧
    ((∀ x, width.Holds x → (lower ≤ x ↔ minimum.Above x)) ↔
      minimum.FitsAbove width.low width.high) ∧
    ((∀ x, width.Holds x → (x ≤ upper ↔ maximum.Below x)) ↔
      maximum.FitsBelow width.low width.high) := by
  cases hformat : IntegerWidth.ofFormat ((schema.find? "format").getD .null) with
  | error e =>
    rw [ofInteger, hformat] at hread
    cases hread
  | ok named =>
    rw [ofInteger, hformat, Bound.read_of_declared? hminimum, Bound.read_of_declared? hmaximum]
      at hread
    cases hread
    obtain ⟨rfl, hlower, hupper⟩ := range_of_ofBounds hkind
    have hlow := Side.start_iff width.low_lt_high minimum
    have hhigh := Side.stop_iff width.low_lt_high maximum
    rw [← hlower] at hlow
    rw [← hupper] at hhigh
    refine ⟨rfl, fun hmin hmax x hx => ?_, ?_, ?_⟩
    · exact and_congr (hlow.mpr hmin x hx.1 hx.2) (hhigh.mpr hmax x hx.1 hx.2)
    · rw [← hlow]
      exact ⟨fun h x hx hx' => h x ⟨hx, hx'⟩, fun h x hx => h x hx.1 hx.2⟩
    · rw [← hhigh]
      exact ⟨fun h x hx hx' => h x ⟨hx, hx'⟩, fun h x hx => h x hx.1 hx.2⟩

/-- A schema with the given keywords. -/
def keywords (fields : List (String × Document)) : Document :=
  .object (fields.map fun p => (.text p.1, p.2))

/-- More than one by the flag, and less than ten by a bound of its own. -/
def digits : Document :=
  keywords [("format", .text "int32"), ("minimum", .int 1), ("exclusiveMinimum", .bool true),
    ("exclusiveMaximum", .int 10)]

/-- The range of a schema that declares one side in each style is from two to nine. -/
theorem represents_digits :
    ofInteger digits true = .ok ⟨.boundedI32 (some 2) (some 9), false⟩ ∧
      Represents .w32 2 9 ⟨some 1, .flag true⟩ ⟨none, .bound 10⟩ := by
  have hread : ofInteger digits true = .ok ⟨.boundedI32 (some 2) (some 9), false⟩ := rfl
  have hkind : Scalar.boundedI32 (some 2) (some 9) = IntegerWidth.w32.bounded 2 9 := rfl
  refine ⟨hread, (range_represents hread hkind rfl rfl).2.1 ?_ ?_⟩
  · simp [Side.FitsAbove, IntegerWidth.low, IntegerWidth.high]
  · simp [Side.FitsBelow, IntegerWidth.low, IntegerWidth.high]

/-- A schema that gets a bounded kind whose range is not what it declares. -/
def Misread (schema : Document) : Prop :=
  ∃ reading width lower upper minimum maximum,
    ofInteger schema true = .ok reading ∧ reading.scalar = IntegerWidth.bounded width lower upper ∧
      Side.declared? schema "minimum" "exclusiveMinimum" = some minimum ∧
      Side.declared? schema "maximum" "exclusiveMaximum" = some maximum ∧
      ¬Represents width lower upper minimum maximum

/-- More than an integer below the width, which any of the width is. -/
def farMinimum : Document :=
  keywords [("format", .text "int32"), ("minimum", .int (-2147483649)),
    ("exclusiveMinimum", .bool true)]

/-- **Sides that do not fit are misread**: an exclusive minimum below the width, an exclusive
minimum beside a minimum that says more, an exclusive flag without a maximum, and a minimum above the
width. -/
theorem misread_farMinimum :
    Misread farMinimum ∧
      Misread (keywords [("minimum", .int 10), ("exclusiveMinimum", .int 3)]) ∧
      Misread (keywords [("minimum", .int 5), ("exclusiveMaximum", .bool true)]) ∧
      Misread (keywords [("format", .text "int32"), ("minimum", .int 2147483648)]) := by
  refine ⟨⟨_, .w32, -2147483647, 2147483647, ⟨some (-2147483649), .flag true⟩, ⟨none, .flag false⟩,
      rfl, rfl, rfl, rfl, fun h => ?_⟩,
    ⟨_, .w64, 4, 9223372036854775807, ⟨some 10, .bound 3⟩, ⟨none, .flag false⟩,
      rfl, rfl, rfl, rfl, fun h => ?_⟩,
    ⟨_, .w64, 5, 9223372036854775806, ⟨some 5, .flag false⟩, ⟨none, .flag true⟩,
      rfl, rfl, rfl, rfl, fun h => ?_⟩,
    ⟨_, .w32, -2147483648, 2147483647, ⟨some 2147483648, .flag false⟩, ⟨none, .flag false⟩,
      rfl, rfl, rfl, rfl, fun h => ?_⟩⟩
  -- the least integer of the width is admitted and not in the range
  · have := h (-2147483648) ⟨by decide, by decide⟩
    simp [Side.Above, Side.Below] at this
  -- four is in the range and not admitted
  · have := h 4 ⟨by decide, by decide⟩
    simp [Side.Above, Side.Below] at this
  -- the greatest integer of the width is admitted and not in the range
  · have := h 9223372036854775807 ⟨by decide, by decide⟩
    simp [Side.Above, Side.Below] at this
  -- zero is in the range, and nothing is admitted
  · have := h 0 ⟨by decide, by decide⟩
    simp [Side.Above, Side.Below] at this

end Scalar

/-! ## Within the width -/

/-- A range between two ends begins between them, unless its bound is the far end and exclusive; then
it begins right after that end. -/
theorem Bound.start_le_iff {low high : Int} (hlt : low < high) (b : Bound) :
    low ≤ b.start low high ∧ b.start low high ≤ high + 1 ∧
      (b.start low high ≤ high ↔ b ≠ ⟨some high, true⟩) := by
  obtain ⟨value, on⟩ := b
  cases value with
  | none =>
    rw [start_none]
    cases on <;> simp <;> omega
  | some n =>
    by_cases hn : low ≤ n ∧ n ≤ high
    · rw [start_of_inside hn]
      cases on <;> simp <;> omega
    · rw [start_of_outside hn]
      cases on <;> simp <;> omega

/-- A bound is the near end, seen from the other end, if it is the far end. -/
theorem Bound.mirror_eq_iff (b : Bound) (n : Int) :
    b.mirror = ⟨some (-n), true⟩ ↔ b = ⟨some n, true⟩ := by
  obtain ⟨value, on⟩ := b
  cases value <;> simp [mirror]

namespace Scalar

/-- A kind with a range has both ends, and the bounds that they come from have been read. -/
theorem exists_bounds {schema : Document} {bounded : Bool} {reading : IntegerReading}
    {range : Option Int × Option Int} (hread : ofInteger schema bounded = .ok reading)
    (hrange : reading.scalar.range? = some range) :
    ∃ width minimum maximum lower upper,
      IntegerWidth.ofFormat ((schema.find? "format").getD .null) = .ok width ∧
      Bound.read schema "minimum" "exclusiveMinimum" = .ok minimum ∧
      Bound.read schema "maximum" "exclusiveMaximum" = .ok maximum ∧
      (ofBounds width minimum maximum bounded).scalar = width.bounded lower upper ∧
      reading.scalar = width.bounded lower upper := by
  obtain ⟨width, hwidth, hread⟩ := of_bind_eq_ok hread
  obtain ⟨minimum, hminimum, hread⟩ := of_bind_eq_ok hread
  obtain ⟨maximum, hmaximum, hread⟩ := of_bind_eq_ok hread
  cases hread
  refine ⟨width, minimum, maximum, ?_⟩
  -- the plain kinds have no range
  unfold ofBounds at hrange ⊢
  split at hrange
  · cases width <;> cases hrange
  · split at hrange
    · rename_i hunsigned hbounded
      rw [if_neg hunsigned, if_pos hbounded]
      exact ⟨_, _, hwidth, hminimum, hmaximum, rfl, rfl⟩
    · cases width <;> cases hrange

/-- **The ends of a bounded kind are integers of its width, but for one exclusive bound on each
side.** The step inward is taken last, so an exclusive minimum that is the greatest integer of the
width ends up right above it, and an exclusive maximum that is the least one right below. Every
other end is an integer of the width, whatever the schema declares. -/
theorem ends_in_width {schema : Document} {bounded : Bool} {reading : IntegerReading}
    {range : Option Int × Option Int} (hread : ofInteger schema bounded = .ok reading)
    (hrange : reading.scalar.range? = some range) :
    ∃ width minimum maximum lower upper,
      IntegerWidth.ofFormat ((schema.find? "format").getD .null) = .ok width ∧
      Bound.read schema "minimum" "exclusiveMinimum" = .ok minimum ∧
      Bound.read schema "maximum" "exclusiveMaximum" = .ok maximum ∧
      reading.scalar = width.bounded lower upper ∧
      (width.Holds lower ↔ minimum ≠ ⟨some width.high, true⟩) ∧
      (minimum = ⟨some width.high, true⟩ → lower = width.high + 1) ∧
      (width.Holds upper ↔ maximum ≠ ⟨some width.low, true⟩) ∧
      (maximum = ⟨some width.low, true⟩ → upper = width.low - 1) := by
  obtain ⟨width, minimum, maximum, lower, upper, hwidth, hminimum, hmaximum, hbounds, hscalar⟩ :=
    exists_bounds hread hrange
  obtain ⟨_, hlower, hupper⟩ := range_of_ofBounds hbounds
  have hlt := width.low_lt_high
  obtain ⟨hlow, hnext, hhigh⟩ := Bound.start_le_iff hlt minimum
  -- the upper end is the lower end of the range seen from the other end
  have hlt' : -width.high < -width.low := by omega
  obtain ⟨hlow', hnext', hhigh'⟩ := Bound.start_le_iff hlt' maximum.mirror
  rw [ne_eq, Bound.mirror_eq_iff] at hhigh'
  refine ⟨width, minimum, maximum, lower, upper, hwidth, hminimum, hmaximum, hscalar, ?_, ?_, ?_, ?_⟩
  · rw [← hhigh, IntegerWidth.Holds, hlower]
    exact and_iff_right hlow
  · intro heq
    have : ¬minimum.start width.low width.high ≤ width.high := fun h => hhigh.mp h heq
    omega
  · rw [ne_eq, ← hhigh', IntegerWidth.Holds, hupper]
    omega
  · intro heq
    have : ¬maximum.mirror.start (-width.high) (-width.low) ≤ -width.low := fun h => hhigh'.mp h heq
    omega

/-- The range from two to nine lies within the width. -/
theorem ends_digits :
    ofInteger digits true = .ok ⟨.boundedI32 (some 2) (some 9), false⟩ ∧
      IntegerWidth.w32.Holds 2 ∧ IntegerWidth.w32.Holds 9 := by
  have hread : ofInteger digits true = .ok ⟨.boundedI32 (some 2) (some 9), false⟩ := rfl
  obtain ⟨width, minimum, maximum, lower, upper, hwidth, hminimum, hmaximum, hscalar, hlower, _,
    hupper, _⟩ := ends_in_width hread rfl
  cases hwidth
  cases hminimum
  cases hmaximum
  cases hscalar
  exact ⟨hread, hlower.mpr (by decide), hupper.mpr (by decide)⟩

/-- More than the greatest integer of the width, which none of the width is. -/
def beyondWidth : Document :=
  keywords [("format", .text "int32"), ("minimum", .int 2147483647),
    ("exclusiveMinimum", .bool true)]

/-- **An exclusive bound at the far end leaves the width**, on either side, in either style and for
either width. -/
theorem beyondWidth_leaves :
    ofInteger beyondWidth true = .ok ⟨.boundedI32 (some 2147483648) (some 2147483647), false⟩ ∧
      ¬IntegerWidth.w32.Holds 2147483648 ∧
      ofInteger (keywords [("exclusiveMaximum", .int (-9223372036854775808))]) true =
        .ok ⟨.boundedI64 (some (-9223372036854775808)) (some (-9223372036854775809)), false⟩ ∧
      ¬IntegerWidth.w64.Holds (-9223372036854775809) := by
  refine ⟨rfl, ?_, rfl, ?_⟩
  · rintro ⟨_, hhigh⟩
    revert hhigh
    decide
  · rintro ⟨hlow, _⟩
    revert hlow
    decide

end Scalar

end TypedApi
