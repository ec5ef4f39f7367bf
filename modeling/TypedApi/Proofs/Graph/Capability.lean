import TypedApi.Proofs.Graph.Finish
import Mathlib.Data.Nat.Find
import Mathlib.Logic.Relation
/-!
Capabilities are what a search for a veto finds.

Whether an item has a capability is asked along its references, and an item that
is already being asked about is taken to have it. The items being asked about
depend on the way there, so the same item may be asked about many times, and with
different answers. The questions come to an end all the same: each is about one
more item than the question before it.

What comes out does not depend on the way. An item lacks the capability exactly
if it reaches one that vetoes it. If there is such an item, the way to the nearest
one is never cut short: along it the distance falls, so no item on it is being
asked about already.
-/

set_option autoImplicit false

namespace TypedApi

/-! ## Vetoes -/

/-- A shape that denies a capability whatever it refers to. -/
inductive Shape.Vetoes : Capability → Shape → Prop
  | scalar {c : Capability} {s : Scalar} (h : s.has c = false) : Vetoes c (.scalar s)
  | copyList (item : Ref) : Vetoes .copy (.list item)
  | copySet (item : Ref) : Vetoes .copy (.set item)
  | copyMap (value : Option Ref) : Vetoes .copy (.map value)
  | copyEnum (texts : List String) : Vetoes .copy (.stringEnum texts true)
  | hashSet (item : Ref) : Vetoes .hash (.set item)
  | hashMap (value : Option Ref) : Vetoes .hash (.map value)

namespace Shape

variable {c : Capability} {shape : Shape}

/-- A shape vetoes a capability exactly if it decides against it on its own. -/
theorem vetoes_iff : shape.Vetoes c ↔ shape.verdict? c = some false := by
  constructor
  · intro h
    cases h with
    | scalar h => rw [verdict?, h]
    | _ => rfl
  · intro h
    cases shape with
    | scalar s => exact .scalar (Option.some.inj h)
    | list item =>
      cases c with
      | copy => exact .copyList item
      | _ => cases h
    | set item =>
      cases c with
      | eq => cases h
      | copy => exact .copySet item
      | hash => exact .hashSet item
    | map value =>
      cases c with
      | eq => cases h
      | copy => exact .copyMap value
      | hash => exact .hashMap value
    | stringEnum texts extensible =>
      cases c with
      | copy =>
        cases extensible with
        | false => cases h
        | true => exact .copyEnum texts
      | _ => cases h
    | _ => cases h

/-- A shape that grants a capability on its own refers to nothing. -/
theorem refs_of_granted (h : shape.verdict? c = some true) : shape.refs = [] := by
  cases shape with
  | scalar | stringEnum => rfl
  | list | set | map => cases c <;> cases h
  | _ => cases h

end Shape

/-! ## Questions -/

/-- Asking all of a list gives an answer if every question does, and denies exactly if one of them
does. -/
theorem allM_answers {α ε : Type} {k : α → Except ε Bool} {l : List α}
    (h : ∀ a ∈ l, ∃ answer, k a = .ok answer) :
    ∃ answer, l.allM k = .ok answer ∧ (answer = false ↔ ∃ a ∈ l, k a = .ok false) := by
  induction l with
  | nil => exact ⟨true, rfl, by simp⟩
  | cons a l ih =>
    obtain ⟨first, hfirst⟩ := h a List.mem_cons_self
    obtain ⟨rest, hrest, hiff⟩ := ih fun b hb => h b (List.mem_cons_of_mem _ hb)
    rw [List.allM, hfirst]
    cases first with
    | false => exact ⟨false, rfl, by simp [hfirst]⟩
    | true =>
      refine ⟨rest, hrest, ?_⟩
      rw [hiff]
      simp [hfirst]

/-- Questions that are answered alike one by one are answered alike together. -/
theorem allM_congr {α ε : Type} {k k' : α → Except ε Bool} {l : List α}
    (h : ∀ a ∈ l, k a = k' a) : l.allM k = l.allM k' := by
  have := allM_map_congr (g := id) (k := k') h
  rwa [List.map_id] at this

namespace Model

/-- What is answered for a reference: that of an item which is being asked about is granted, and
that of another is put to it by `ask`. -/
def question (m : Model) (ask : List Int → Shape → Except Failure Bool) (seen : List Int)
    (r : Ref) : Except Failure Bool := do
  let index ← m.indexOf r
  if seen.contains index then return true
  else
    let item ← m.itemAt index
    ask (index :: seen) item.shape

/-- Whether one question leads on to another: the shape that is asked does not decide on its own,
and it refers to an item that is not being asked about. -/
def Asks (m : Model) (c : Capability) (next last : List Int × Shape) : Prop :=
  last.2.verdict? c = none ∧
    ∃ r ∈ last.2.refs, ∃ index item, m.indexOf r = .ok index ∧ index ∉ last.1 ∧
      m.itemAt index = .ok item ∧ next = (index :: last.1, item.shape)

/-- The indices of items, counted from either end, that are not being asked about. -/
def unseen (m : Model) (seen : List Int) : List Int :=
  ((List.range (2 * m.size)).map fun k : Nat => (k : Int) - m.size).filter fun index => index ∉ seen

variable {m : Model} {c : Capability}

/-- An index that an item is found at is one of those counted from either end. -/
theorem range_of_itemAt {index : Int} {item : Item} (h : m.itemAt index = .ok item) :
    -m.size ≤ index ∧ index < m.size := by
  rw [itemAt] at h
  cases hposition : m.position? index with
  | none =>
    rw [hposition] at h
    cases h
  | some i =>
    simp only [position?, Option.ite_none_right_eq_some, Bool.and_eq_true, decide_eq_true_eq]
      at hposition
    obtain ⟨⟨hlow, hhigh⟩, _⟩ := hposition
    omega

theorem length_unseen_nil : (m.unseen []).length = 2 * m.size := by
  simp [unseen]

/-- Asking about one more item leaves fewer to ask about. -/
theorem length_unseen_cons {seen : List Int} {index : Int} {item : Item} (hseen : index ∉ seen)
    (h : m.itemAt index = .ok item) :
    (m.unseen (index :: seen)).length < (m.unseen seen).length := by
  obtain ⟨hlow, hhigh⟩ := range_of_itemAt h
  have hmem : index ∈ m.unseen seen := by
    refine List.mem_filter.mpr ⟨List.mem_map.mpr ⟨(index + m.size).toNat, ?_, ?_⟩, ?_⟩
    · rw [List.mem_range]
      omega
    · omega
    · rwa [decide_eq_true_eq]
  have hcons : m.unseen (index :: seen) = (m.unseen seen).filter fun other => other ≠ index := by
    rw [unseen, unseen, List.filter_filter]
    simp only [List.mem_cons, not_or, Bool.decide_and]
  rw [hcons, List.length_filter_lt_length_iff_exists]
  exact ⟨index, hmem, by simp⟩

/-- **The questions come to an end**, whatever the model refers to. -/
theorem asks_wellFounded (m : Model) (c : Capability) : WellFounded (m.Asks c) := by
  refine Subrelation.wf ?_ (measure fun q : List Int × Shape => (m.unseen q.1).length).wf
  rintro next last ⟨_, r, _, index, item, _, hseen, hitem, rfl⟩
  exact length_unseen_cons hseen hitem

/-- A question is answered alike if it is where it is put to the item. -/
theorem question_congr {ask ask' : List Int → Shape → Except Failure Bool} {seen : List Int}
    (h : ∀ index item, index ∉ seen → m.itemAt index = .ok item →
      ask (index :: seen) item.shape = ask' (index :: seen) item.shape) (r : Ref) :
    m.question ask seen r = m.question ask' seen r := by
  rw [question, question]
  cases m.indexOf r with
  | error e => rfl
  | ok index =>
    by_cases hseen : index ∈ seen
    · simp [bind, Except.bind, hseen]
    · cases hitem : m.itemAt index with
      | error e => simp [bind, Except.bind, hseen, hitem]
      | ok item => simp [bind, Except.bind, hseen, hitem, h index item hseen hitem]

/-- The answer of a shape with as much fuel as there are items to ask about. -/
def ask (m : Model) (c : Capability) (seen : List Int) (shape : Shape) : Except Failure Bool :=
  m.shapeHas c ((m.unseen seen).length + 1) seen shape

/-- **More fuel changes no answer.** -/
theorem shapeHas_eq_ask {fuel : Nat} {seen : List Int} (shape : Shape)
    (h : (m.unseen seen).length < fuel) : m.shapeHas c fuel seen shape = m.ask c seen shape := by
  induction fuel using Nat.strongRecOn generalizing seen shape with
  | ind fuel ih =>
    obtain ⟨fuel, rfl⟩ := Nat.exists_eq_succ_of_ne_zero (by omega : fuel ≠ 0)
    rw [ask, shapeHas, shapeHas]
    cases shape.verdict? c with
    | some answer => rfl
    | none =>
      apply allM_congr
      intro r _
      refine question_congr (fun index item hseen hitem => ?_) r
      -- both have enough fuel left for the item, which leaves fewer to ask about
      have hless := length_unseen_cons hseen hitem
      rw [ih fuel (by omega) item.shape (by omega),
        ih (m.unseen seen).length (by omega) item.shape hless]

/-- **A shape is asked without fuel**: it decides on its own, or asks all that it refers to. -/
theorem ask_eq (seen : List Int) (shape : Shape) :
    m.ask c seen shape =
      match shape.verdict? c with
      | some answer => .ok answer
      | none => shape.refs.allM (m.question (m.ask c) seen) := by
  rw [ask, shapeHas]
  cases shape.verdict? c with
  | some answer => rfl
  | none =>
    apply allM_congr
    intro r _
    exact question_congr
      (fun index item hseen hitem => shapeHas_eq_ask item.shape (length_unseen_cons hseen hitem)) r

/-- The fuel that an item is asked with is enough. -/
theorem has_eq_ask (item : Item) : m.has c item = m.ask c [] item.shape := by
  refine shapeHas_eq_ask item.shape ?_
  rw [length_unseen_nil]
  exact Nat.lt_succ_self _

end Model

/-! ## The way to a veto -/

namespace Model

/-- A model of which every item refers to items only. -/
def Grounded (m : Model) : Prop :=
  ∀ item ∈ m.definitions, ∀ r ∈ item.shape.refs, ∃ index, m.indexOf r = .ok index ∧
    0 ≤ index ∧ index < m.size

/-- Whether the item at a position refers to the one at another. -/
def Refers (m : Model) (i j : Nat) : Prop :=
  ∃ item, m.definitions[i]? = some item ∧ ∃ r ∈ item.shape.refs, m.indexOf r = .ok (j : Int)

/-- Whether the item at a position refers to the one at another, directly or not. Every item reaches
itself. -/
def Reaches (m : Model) : Nat → Nat → Prop :=
  Relation.ReflTransGen m.Refers

/-- Whether the item at a position vetoes a capability. -/
def Vetoes (m : Model) (c : Capability) (i : Nat) : Prop :=
  ∃ item, m.definitions[i]? = some item ∧ item.shape.Vetoes c

/-- Whether the item at a position reaches one that vetoes a capability. -/
def Barred (m : Model) (c : Capability) (i : Nat) : Prop :=
  ∃ j, m.Reaches i j ∧ m.Vetoes c j

/-- Whether there is a veto a number of references away from the item at a position. -/
def VetoIn (m : Model) (c : Capability) : Nat → Nat → Prop
  | 0, i => m.Vetoes c i
  | n + 1, i => ∃ j, m.Refers i j ∧ m.VetoIn c n j

variable {m : Model} {c : Capability} {i j : Nat} {item other : Item}

theorem barred_iff_vetoIn : m.Barred c i ↔ ∃ n, m.VetoIn c n i := by
  constructor
  · rintro ⟨j, hreach, hveto⟩
    induction hreach using Relation.ReflTransGen.head_induction_on with
    | refl => exact ⟨0, hveto⟩
    | head hrefers _ ih =>
      obtain ⟨n, hn⟩ := ih
      exact ⟨n + 1, _, hrefers, hn⟩
  · rintro ⟨n, hn⟩
    induction n generalizing i with
    | zero => exact ⟨i, .refl, hn⟩
    | succ n ih =>
      obtain ⟨j, hrefers, hj⟩ := hn
      obtain ⟨k, hreach, hveto⟩ := ih hj
      exact ⟨k, .head hrefers hreach, hveto⟩

/-- Of the vetoes that an item reaches, one is nearest. -/
theorem VetoIn.nearest {n : Nat} (h : m.VetoIn c n i) :
    ∃ k ≤ n, m.VetoIn c k i ∧ ∀ l < k, ¬m.VetoIn c l i := by
  classical
  have hexists : ∃ k, m.VetoIn c k i := ⟨n, h⟩
  exact ⟨Nat.find hexists, Nat.find_min' hexists h, Nat.find_spec hexists,
    fun l hl => Nat.find_min hexists hl⟩

/-- An item that reaches a barred one is barred. -/
theorem Barred.of_reaches (hreach : m.Reaches i j) (h : m.Barred c j) : m.Barred c i := by
  obtain ⟨k, hk, hveto⟩ := h
  exact ⟨k, hreach.trans hk, hveto⟩

/-- There is an item where something is barred. -/
theorem Barred.exists_item (h : m.Barred c i) : ∃ item, m.definitions[i]? = some item := by
  obtain ⟨j, hreach, item, hitem, _⟩ := h
  rcases Relation.ReflTransGen.cases_head hreach with rfl | ⟨_, ⟨first, hfirst, _⟩, _⟩
  · exact ⟨item, hitem⟩
  · exact ⟨first, hfirst⟩

/-- An item with no veto of its own is barred exactly if one that it refers to is. -/
theorem barred_iff_of_not_vetoes (hitem : m.definitions[i]? = some item)
    (h : ¬item.shape.Vetoes c) : m.Barred c i ↔ ∃ j, m.Refers i j ∧ m.Barred c j := by
  constructor
  · rintro ⟨k, hreach, hveto⟩
    rcases Relation.ReflTransGen.cases_head hreach with rfl | ⟨j, hrefers, hreach⟩
    · obtain ⟨other, hother, hveto⟩ := hveto
      cases hitem.symm.trans hother
      exact (h hveto).elim
    · exact ⟨j, hrefers, k, hreach, hveto⟩
  · rintro ⟨j, hrefers, hbarred⟩
    exact hbarred.of_reaches (.single hrefers)

/-- What a reference of a grounded model answers. -/
theorem Grounded.question_eq (h : m.Grounded) (hitem : m.definitions[i]? = some item) {r : Ref}
    (hr : r ∈ item.shape.refs) :
    ∃ (j : Nat) (other : Item), m.Refers i j ∧ m.indexOf r = .ok (j : Int) ∧
      m.definitions[j]? = some other ∧ m.itemAt j = .ok other ∧
      ∀ ask seen, m.question ask seen r =
        if (j : Int) ∈ seen then .ok true else ask (j :: seen) other.shape := by
  obtain ⟨index, hindex, hrange⟩ := h item (List.mem_of_getElem? hitem) r hr
  obtain ⟨j, rfl⟩ := Int.eq_ofNat_of_zero_le hrange.1
  have hj : j < m.definitions.length := by
    have := hrange.2
    rw [size] at this
    omega
  have hother : m.itemAt j = .ok m.definitions[j] := itemAt_natCast (List.getElem?_eq_getElem hj)
  refine ⟨j, m.definitions[j], ⟨item, hitem, r, hr, hindex⟩, hindex, List.getElem?_eq_getElem hj,
    hother, fun ask seen => ?_⟩
  simp [question, hindex, hother, bind, Except.bind]
  rfl

/-- **Every item of a grounded model is answered, and a denial has a reason.** The induction is on
the items that are not being asked about. -/
theorem Grounded.ask_eq_ok (h : m.Grounded) (seen : List Int)
    (hitem : m.definitions[i]? = some item) :
    ∃ answer, m.ask c seen item.shape = .ok answer ∧ (answer = false → m.Barred c i) := by
  induction hlength : (m.unseen seen).length using Nat.strongRecOn generalizing seen i item with
  | ind n ih =>
    rw [ask_eq]
    cases hverdict : item.shape.verdict? c with
    | some answer =>
      refine ⟨answer, rfl, ?_⟩
      rintro rfl
      exact ⟨i, .refl, item, hitem, Shape.vetoes_iff.mpr hverdict⟩
    | none =>
      have hanswers : ∀ r ∈ item.shape.refs, ∃ answer,
          m.question (m.ask c) seen r = .ok answer ∧ (answer = false → m.Barred c i) := by
        intro r hr
        obtain ⟨j, other, hrefers, _, hother, hat, hquestion⟩ := h.question_eq hitem hr
        rw [hquestion]
        by_cases hseen : (j : Int) ∈ seen
        · rw [if_pos hseen]
          exact ⟨true, rfl, nofun⟩
        · rw [if_neg hseen]
          obtain ⟨answer, hanswer, hreason⟩ :=
            ih _ (hlength ▸ length_unseen_cons hseen hat) (j :: seen) hother rfl
          exact ⟨answer, hanswer, fun hfalse => (hreason hfalse).of_reaches (.single hrefers)⟩
      obtain ⟨answer, hanswer, hiff⟩ :=
        allM_answers fun r hr => (hanswers r hr).imp fun _ h => h.1
      refine ⟨answer, hanswer, fun hfalse => ?_⟩
      obtain ⟨r, hr, hdenied⟩ := hiff.mp hfalse
      obtain ⟨_, hok, hreason⟩ := hanswers r hr
      rw [hdenied] at hok
      cases hok
      exact hreason rfl

/-- **The nearest veto is found** if no item being asked about is nearer to one. The induction is on
the distance: the next item on the way is nearer than all that are being asked about, so it is not
one of them. -/
theorem Grounded.ask_eq_false (h : m.Grounded) {n : Nat} {seen : List Int}
    (hitem : m.definitions[i]? = some item) (hveto : m.VetoIn c n i)
    (hseen : ∀ k < n, ∀ j : Nat, (j : Int) ∈ seen → ¬m.VetoIn c k j) :
    m.ask c seen item.shape = .ok false := by
  induction n using Nat.strongRecOn generalizing i item seen with
  | ind n ih =>
    rw [ask_eq]
    cases n with
    | zero =>
      obtain ⟨other, hother, hveto⟩ := hveto
      cases hitem.symm.trans hother
      rw [Shape.vetoes_iff.mp hveto]
    | succ n =>
      obtain ⟨j, ⟨other, hother, r, hr, hindex⟩, hn⟩ := hveto
      cases hitem.symm.trans hother
      cases hverdict : item.shape.verdict? c with
      | some answer =>
        cases answer with
        | false => rfl
        | true =>
          rw [Shape.refs_of_granted hverdict] at hr
          cases hr
      | none =>
        obtain ⟨answer, hanswer, hiff⟩ := allM_answers (l := item.shape.refs)
          (k := m.question (m.ask c) seen) (by
            intro r hr
            obtain ⟨j, other, _, _, hother, _, hquestion⟩ := h.question_eq hitem hr
            rw [hquestion]
            by_cases hj : (j : Int) ∈ seen
            · rw [if_pos hj]
              exact ⟨true, rfl⟩
            · rw [if_neg hj]
              exact (h.ask_eq_ok _ hother).imp fun _ h => h.1)
        obtain ⟨j', other, _, hindex', hother, _, hquestion⟩ := h.question_eq hitem hr
        cases hindex.symm.trans hindex'
        have hdenied : m.question (m.ask c) seen r = .ok false := by
          rw [hquestion, if_neg fun hj => hseen n (by omega) j hj hn]
          -- the next item is put off no further than the veto that is nearest to it
          obtain ⟨k, hle, hk, hnearest⟩ := hn.nearest
          refine ih k (by omega) hother hk fun l hl j' hmem => ?_
          rcases List.mem_cons.mp hmem with heq | hmem
          · rw [Int.ofNat_inj.mp heq]
            exact hnearest l hl
          · exact hseen l (by omega) j' hmem
        show item.shape.refs.allM _ = _
        rw [hanswer, hiff.mpr ⟨r, hr, hdenied⟩]

/-! ## Items -/

/-- A model in which every item refers to the positions of items is grounded. -/
theorem grounded_of_resolved
    (h : ∀ item ∈ m.definitions, ∀ r ∈ item.shape.refs, ∃ j < m.size, r = .resolved (j : Int)) :
    m.Grounded := by
  intro item hitem r hr
  obtain ⟨j, hj, rfl⟩ := h item hitem r hr
  exact ⟨j, indexOf_resolved hj, by omega, by omega⟩

/-- An item of a grounded model has a capability exactly if it is not barred. -/
theorem Grounded.has_eq_ok (h : m.Grounded) (c : Capability) (hitem : m.definitions[i]? = some item) :
    ∃ answer, m.has c item = .ok answer ∧ (answer = true ↔ ¬m.Barred c i) := by
  obtain ⟨answer, hanswer, hreason⟩ := h.ask_eq_ok (c := c) [] hitem
  refine ⟨answer, (has_eq_ask item).trans hanswer, ?_⟩
  constructor
  · rintro rfl hbarred
    obtain ⟨n, hn⟩ := barred_iff_vetoIn.mp hbarred
    have hfalse : m.ask c [] item.shape = .ok false :=
      h.ask_eq_false hitem hn fun _ _ _ => nofun
    rw [hanswer] at hfalse
    cases hfalse
  · intro hfree
    cases answer with
    | true => rfl
    | false => exact (hfree (hreason rfl)).elim

/-- **An item has a capability exactly if it reaches no veto.** Asking for it comes to an end: no
chain of questions goes on for ever, and the answer is not owed to the fuel. What is answered does
not depend on the order of the references or on where the question started: an item without a veto
of its own has the capability exactly if all that it refers to have it, and items that reach each
other have the same capabilities. -/
theorem Grounded.has_iff_unbarred (h : m.Grounded) (c : Capability)
    (hitem : m.definitions[i]? = some item) :
    Acc (m.Asks c) ([], item.shape) ∧
    (∀ fuel, 2 * m.size < fuel → m.shapeHas c fuel [] item.shape = m.has c item) ∧
    (∃ answer, m.has c item = .ok answer ∧ (answer = true ↔ ¬m.Barred c i)) ∧
    (¬item.shape.Vetoes c → (m.has c item = .ok true ↔
      ∀ j other, m.Refers i j → m.definitions[j]? = some other → m.has c other = .ok true)) ∧
    ∀ j other, m.definitions[j]? = some other → m.Reaches i j → m.Reaches j i →
      m.has c other = m.has c item := by
  obtain ⟨answer, hanswer, hiff⟩ := h.has_eq_ok c hitem
  have htrue : m.has c item = .ok true ↔ ¬m.Barred c i := by
    rw [hanswer, ← hiff, Except.ok.injEq]
  refine ⟨(m.asks_wellFounded c).apply _, fun fuel hfuel => ?_, ⟨answer, hanswer, hiff⟩,
    fun hveto => ?_, fun j other hother hto hfrom => ?_⟩
  · rw [has_eq_ask item]
    exact shapeHas_eq_ask item.shape (by rwa [length_unseen_nil])
  · rw [htrue, barred_iff_of_not_vetoes hitem hveto]
    constructor
    · intro hfree j other hrefers hother
      obtain ⟨answer', hanswer', hiff'⟩ := h.has_eq_ok c hother
      rw [hanswer', hiff'.mpr fun hbarred => hfree ⟨j, hrefers, hbarred⟩]
    · rintro hall ⟨j, hrefers, hbarred⟩
      obtain ⟨other, hother⟩ := hbarred.exists_item
      obtain ⟨answer', hanswer', hiff'⟩ := h.has_eq_ok c hother
      rw [hall j other hrefers hother] at hanswer'
      cases hanswer'
      exact hiff'.mp rfl hbarred
  · obtain ⟨answer', hanswer', hiff'⟩ := h.has_eq_ok c hother
    have hsame : m.Barred c j ↔ m.Barred c i :=
      ⟨Barred.of_reaches hto, Barred.of_reaches hfrom⟩
    rw [hanswer, hanswer', Except.ok.injEq, Bool.eq_iff_iff, hiff', hiff, hsame]

/-- A node with a weight, which the node after it leads back to. -/
def node : Item where
  generatedName := "Node"
  shape := .object [("next", { definition := .resolved 1 }),
    ("weight", { definition := .resolved 2 })]

/-- The node after it. -/
def nextNode : Item where
  generatedName := "Next"
  shape := .synonym (.resolved 0)

/-- The nodes with the weight. -/
def ring : Model :=
  { definitions := [node, nextNode, { generatedName := "Weight", shape := .scalar .f64 }]
    items := [("Node", 0), ("Next", 1), ("Weight", 2)]
    finalized := true }

/-- The nodes of the ring cannot be compared, whichever of them is asked, but they can be copied. -/
theorem ring_has :
    ring.Grounded ∧ ring.has .eq node = .ok false ∧ ring.has .eq nextNode = ring.has .eq node ∧
      ring.has .copy node = .ok true := by
  have hgrounded : ring.Grounded := grounded_of_resolved (by decide)
  have hitem : ring.definitions[0]? = some node := rfl
  have hto : ring.Refers 0 1 := ⟨node, rfl, _, .head _, rfl⟩
  have hback : ring.Refers 1 0 := ⟨nextNode, rfl, _, .head _, rfl⟩
  have hweight : ring.Refers 0 2 := ⟨node, rfl, _, .tail _ (.head _), rfl⟩
  have hveto : ring.Vetoes .eq 2 := ⟨_, rfl, .scalar rfl⟩
  obtain ⟨_, _, ⟨answer, hanswer, hiff⟩, _, hmutual⟩ := hgrounded.has_iff_unbarred .eq hitem
  refine ⟨hgrounded, ?_, hmutual 1 nextNode rfl (.single hto) (.single hback), rfl⟩
  cases answer with
  | false => exact hanswer
  | true => exact (hiff.mp rfl ⟨2, .single hweight, hveto⟩).elim

end Model

/-! ## Hashing

The two capabilities are asked for apart, and over a cycle each takes itself for granted. What they
have in common is not the way they are asked for but what bars them. -/

/-- A shape that denies hashing but not comparison. -/
inductive Shape.OnlyCompared : Shape → Prop
  | set (item : Ref) : OnlyCompared (.set item)
  | map (value : Option Ref) : OnlyCompared (.map value)
  | problem : OnlyCompared (.scalar .apiProblem)

/-- A scalar that cannot be hashed cannot be compared, apart from the one of problems. -/
theorem Scalar.hasHash_eq_false_iff {s : Scalar} :
    s.hasHash = false ↔ s.hasEq = false ∨ s = .apiProblem := by
  cases s <;> simp [hasHash, hasEq]

/-- **What vetoes comparison vetoes hashing**, and only sets, maps and problems veto hashing
alone. -/
theorem Shape.vetoes_hash_iff {shape : Shape} :
    shape.Vetoes .hash ↔ shape.Vetoes .eq ∨ shape.OnlyCompared := by
  constructor
  · intro h
    cases h with
    | scalar h =>
      rcases Scalar.hasHash_eq_false_iff.mp h with heq | rfl
      · exact .inl (.scalar heq)
      · exact .inr .problem
    | hashSet item => exact .inr (.set item)
    | hashMap value => exact .inr (.map value)
  · rintro (h | h)
    · cases h with
      | scalar h => exact .scalar (Scalar.hasHash_eq_false_iff.mpr (.inl h))
    · cases h with
      | set item => exact .hashSet item
      | map value => exact .hashMap value
      | problem => exact .scalar rfl

namespace Model

variable {m : Model} {i : Nat} {item : Item}

/-- Whether the item at a position reaches one that denies hashing but not comparison. -/
def ReachesOnlyCompared (m : Model) (i : Nat) : Prop :=
  ∃ j other, m.Reaches i j ∧ m.definitions[j]? = some other ∧ other.shape.OnlyCompared

/-- An item is barred from hashing by what bars it from comparison, or by a set, a map or a
problem. -/
theorem barred_hash_iff : m.Barred .hash i ↔ m.Barred .eq i ∨ m.ReachesOnlyCompared i := by
  constructor
  · rintro ⟨j, hreach, other, hother, hveto⟩
    rcases Shape.vetoes_hash_iff.mp hveto with heq | honly
    · exact .inl ⟨j, hreach, other, hother, heq⟩
    · exact .inr ⟨j, other, hreach, hother, honly⟩
  · rintro (⟨j, hreach, other, hother, heq⟩ | ⟨j, other, hreach, hother, honly⟩)
    · exact ⟨j, hreach, other, hother, Shape.vetoes_hash_iff.mpr (.inl heq)⟩
    · exact ⟨j, hreach, other, hother, Shape.vetoes_hash_iff.mpr (.inr honly)⟩

/-- **Hashing never comes without comparison**, whatever cycles the items form. Both questions are
answered for every item of a grounded model, and an item that can be compared can be hashed unless
it reaches a set, a map or a problem. -/
theorem Grounded.comparable_of_hashable (h : m.Grounded) (hitem : m.definitions[i]? = some item) :
    ∃ hashable comparable, m.has .hash item = .ok hashable ∧ m.has .eq item = .ok comparable ∧
      (hashable = true → comparable = true) ∧
      (hashable = true ↔ comparable = true ∧ ¬m.ReachesOnlyCompared i) := by
  obtain ⟨hashable, hhash, hhash_iff⟩ := h.has_eq_ok .hash hitem
  obtain ⟨comparable, heq, heq_iff⟩ := h.has_eq_ok .eq hitem
  have hiff : hashable = true ↔ comparable = true ∧ ¬m.ReachesOnlyCompared i := by
    rw [hhash_iff, heq_iff, barred_hash_iff, not_or]
  exact ⟨hashable, comparable, hhash, heq, fun htrue => (hiff.mp htrue).1, hiff⟩

/-- Two nodes that lead to each other, with a weight of some form. -/
def ringWith (weight : Shape) : Model :=
  { definitions := [node, nextNode, { generatedName := "Weight", shape := weight }]
    items := [("Node", 0), ("Next", 1), ("Weight", 2)]
    finalized := true }

/-- Nodes that weigh whole numbers can be hashed, so they can be compared; those that weigh sets of
nodes can only be compared. -/
theorem ringWith_comparable :
    (ringWith (.scalar .i64)).Grounded ∧
      (ringWith (.scalar .i64)).has .hash node = .ok true ∧
      (ringWith (.scalar .i64)).has .eq node = .ok true ∧
      (ringWith (.set (.resolved 0))).has .hash node = .ok false ∧
      (ringWith (.set (.resolved 0))).has .eq node = .ok true := by
  have hnumbers : (ringWith (.scalar .i64)).Grounded := grounded_of_resolved (by decide)
  have hsets : (ringWith (.set (.resolved 0))).Grounded := grounded_of_resolved (by decide)
  have hfirst : ∀ weight, (ringWith weight).definitions[0]? = some node := fun _ => rfl
  refine ⟨hnumbers, rfl, ?_, ?_, rfl⟩
  · obtain ⟨hashable, comparable, hhash, heq, himp, _⟩ :=
      hnumbers.comparable_of_hashable (hfirst _)
    have htrue : hashable = true := Except.ok.inj (hhash.symm.trans rfl)
    rw [heq, himp htrue]
  · obtain ⟨hashable, comparable, hhash, _, _, hiff⟩ :=
      hsets.comparable_of_hashable (hfirst _)
    have hweight : (ringWith (.set (.resolved 0))).Refers 0 2 := ⟨node, rfl, _, .tail _ (.head _), rfl⟩
    rw [hhash]
    cases hashable with
    | false => rfl
    | true => exact ((hiff.mp rfl).2 ⟨2, _, .single hweight, rfl, .set _⟩).elim

end Model

end TypedApi
