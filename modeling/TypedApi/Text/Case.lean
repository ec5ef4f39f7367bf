/-!
Runs of characters whose other letter case lies a fixed distance away.

The tables of letter case are long but regular: most of their characters lie
in runs with a fixed step, and within a run the distance to the other case is
the same. A table is a list of runs, and no character is in two of them.
-/

set_option autoImplicit false

namespace TypedApi.Text

/-- The code points `first`, `first + step`, …, `last`, whose other case lies `shift` further. -/
structure CaseRun where
  first : Nat
  last : Nat
  step : Nat
  shift : Int

/-- Whether a character is in a run. -/
def CaseRun.covers (r : CaseRun) (c : Char) : Bool :=
  r.first ≤ c.toNat && c.toNat ≤ r.last && (c.toNat - r.first) % r.step = 0

/-- The other case of a character that some run covers; other characters are kept. -/
def shiftCase (runs : List CaseRun) (c : Char) : Char :=
  match runs.find? (·.covers c) with
  | some r => Char.ofNat (c.toNat + r.shift).toNat
  | none => c

/-- Lower case of the ASCII letters, all else kept. -/
def lowerAscii (s : String) : String :=
  String.ofList (s.toList.map Char.toLower)

end TypedApi.Text
