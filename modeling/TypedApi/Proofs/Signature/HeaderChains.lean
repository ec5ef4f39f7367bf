import TypedApi.Proofs.Conversion.Appending
import TypedApi.Proofs.Document.Walk
import TypedApi.Proofs.Operation.Blame
import TypedApi.Proofs.Schema.Denotation
import TypedApi.Proofs.Signature.Parts
/-!
Headers that are references.

Converting a header and adding a shared header take turns: a header that is a
reference asks for the shared header at its path, which may be a reference
itself. Nothing in them gets smaller from one turn to the next. They come to an
end because the whole chain of references is walked before the first turn, and
what is lowered is a list of links. `Converts` and `Inserts` are the two without
the list, one rule for each way that a turn can go; what the builds come to is
always derived by these rules, and a derivation is finite.

Once a reference has been answered its path is registered. From then on the
table answers, before anything else is looked at.
-/

set_option autoImplicit false

namespace TypedApi.Operation

open Build Document

variable {document value specName header target : Document} {path name : String}
  {seen : List String} {links : List Link} {w w' : Workbench} {r : Ref} {m m' : Model}

/-! ## Turns -/

mutual

/-- How a header is converted, and what that comes to. -/
inductive Converts (document : Document) :
    Document → Document → Workbench → Except Failure Ref × Workbench → Prop
  /-- A header that is no reference gets an item of its own. -/
  | own (specName header : Document) (w : Workbench) :
    header.get? "$ref" = some .null →
    Converts document specName header w (exec (createHeader specName none header) w)
  /-- A path that is registered has its item already. -/
  | registered (specName header : Document) (path : String) (index : Int) (w : Workbench) :
    header.find? "$ref" = some (.text path) → w.model.namedReferences.get? path = some index →
    Converts document specName header w (.ok (.back index), w)
  /-- Any other path has to be that of a shared header. -/
  | misplaced (specName header : Document) (path : String) (w : Workbench) :
    header.find? "$ref" = some (.text path) → w.model.namedReferences.get? path = none →
    headerName? path = none →
    Converts document specName header w (.error ⟨.unknownReference path, none⟩, w)
  /-- The whole chain has to lead somewhere. -/
  | broken (specName header : Document) (path name : String) (e : Failure) (w : Workbench) :
    header.find? "$ref" = some (.text path) → w.model.namedReferences.get? path = none →
    headerName? path = some name → Walk document [] header (.error e) →
    Converts document specName header w (blameReference path (.error e), w)
  /-- Then the shared header at the path is added. -/
  | further (specName header target : Document) (path name : String) (links : List Link)
    (w : Workbench) (result : Except Failure Ref × Workbench) :
    header.find? "$ref" = some (.text path) → w.model.namedReferences.get? path = none →
    headerName? path = some name → Walk document [] header (.ok links) →
    document.resolve path = .ok target → Inserts document (.text name) target w result →
    Converts document specName header w result
  /-- What is no object, or has something else for a path, cannot be read. -/
  | malformed (specName header : Document) (w : Workbench) :
    (∀ reference, header.get? "$ref" = some reference →
      reference.isNull = false ∧ reference.text? = none) →
    Converts document specName header w (.error .malformed, w)

/-- How a shared header is added, and what that comes to. -/
inductive Inserts (document : Document) :
    Document → Document → Workbench → Except Failure Ref × Workbench → Prop
  /-- It may have been added before. -/
  | registered (specName header : Document) (index : Int) (w : Workbench) :
    w.model.namedReferences.get? (headersPrefix ++ specName.display) = some index →
    Inserts document specName header w (.ok (.back index), w)
  /-- A reference is converted, and its item registered under this path as well. -/
  | shares (specName header : Document) (r : Ref) (w u : Workbench) :
    w.model.namedReferences.get? (headersPrefix ++ specName.display) = none →
    header.mentions? "$ref" = some true → Converts document specName header w (.ok r, u) →
    Inserts document specName header w
      (exec (do
        registerPath (headersPrefix ++ specName.display) r
        return r) u)
  | failed (specName header : Document) (e : Failure) (w u : Workbench) :
    w.model.namedReferences.get? (headersPrefix ++ specName.display) = none →
    header.mentions? "$ref" = some true → Converts document specName header w (.error e, u) →
    Inserts document specName header w (.error e, u)
  /-- Any other header gets an item that everyone may use. -/
  | own (specName header : Document) (w : Workbench) :
    w.model.namedReferences.get? (headersPrefix ++ specName.display) = none →
    header.mentions? "$ref" = some false →
    Inserts document specName header w
      (exec (createShared specName (headersPrefix ++ specName.display) header) w)
  /-- What is no object cannot be read. -/
  | malformed (specName header : Document) (w w' : Workbench) :
    header.fields? = none → w'.model = w.model →
    Inserts document specName header w (.error .malformed, w')

end

/-- A path of a shared header is made of the name of the header. -/
theorem eq_of_headerName? (h : headerName? path = some name) : path = headersPrefix ++ name := by
  rw [headerName?] at h
  split at h
  · obtain ⟨rest, hrest⟩ := List.isPrefixOf_iff_prefix.mp ‹_›
    cases h
    rw [← String.toList_inj, String.toList_append, String.toList_ofList, ← hrest,
      ← String.length_toList, List.drop_left]
  · cases h

/-- A shared header that is no object is not added. -/
theorem exec_createShared_malformed (name path : String) (h : header.fields? = none)
    (w : Workbench) : ∃ w', w'.model = w.model ∧
      exec (createShared (.text name) path header) w = (.error .malformed, w') := by
  obtain ⟨notes, hname⟩ := exec_deconflict (Name.upperCamel name) w
  refine ⟨{ w with notes }, rfl, exec_bind_error ?_⟩
  have hrequire : exec (require (Document.text name).text?) w = (.ok name, w) := exec_require _ w
  have hfields : exec (require header.fields?) { w with notes } =
      (.error .malformed, { w with notes }) := by
    rw [exec_require, h]
    rfl
  rw [createHeader, exec_bind_ok hrequire, exec_bind_ok hname]
  exact exec_bind_error hfields

/-- An object mentions the fields that it has. -/
theorem mentions?_of_fields? {fields : List (Document × Document)} (h : header.fields? = some fields)
    (key : String) : header.mentions? key = some (header.find? key).isSome := by
  cases header with
  | object => rfl
  | _ => cases h

/-- **Lowering the links of a walk is taking turns.** The induction is on the links; the walk says
where each of them leads. -/
theorem converts_headerAlong (h : Walk document seen value (.ok links))
    (hvalue : value.find? "$ref" = some (.text path)) (specName : Document) (w : Workbench) :
    Converts document specName value w (exec (headerAlong links) w) := by
  induction links generalizing seen value path specName w with
  | nil =>
    rw [h.find?_of_nil] at hvalue
    cases hvalue
  | cons link rest ih =>
    obtain ⟨target, _, heq, hresolve, hrest⟩ := h.exists_link hvalue
    cases heq
    rw [headerAlong, exec_bind_model]
    cases hget : w.model.namedReferences.get? path with
    | some index => exact .registered specName value path index w hvalue hget
    | none =>
      cases hname : headerName? path with
      | none => exact .misplaced specName value path w hvalue hget hname
      | some name =>
        have hpath : path = headersPrefix ++ (Document.text name).display := eq_of_headerName? hname
        have hfree := hpath ▸ hget
        refine .further specName value target path name _ w _ hvalue hget hname
          (h.mono (List.nil_subset _)) hresolve ?_
        dsimp only
        cases rest with
        | nil =>
          have hnone := hrest.find?_of_nil
          rw [if_pos List.isEmpty_nil, hpath]
          cases htarget : target.fields? with
          | none =>
            obtain ⟨w', hsame, hexec⟩ := exec_createShared_malformed name
              (headersPrefix ++ (Document.text name).display) htarget w
            rw [hexec]
            exact .malformed _ _ _ _ htarget hsame
          | some fields =>
            refine .own _ _ _ hfree ?_
            rw [mentions?_of_fields? htarget, hnone]
            rfl
        | cons next rest =>
          have hnext := hrest.exists_reference
          have hmentions : target.mentions? "$ref" = some true := by
            obtain ⟨fields, rfl⟩ := exists_fields_of_find? hnext
            rw [mentions?_of_fields? rfl, hnext]
            rfl
          have hturn := ih hrest hnext (.text name) w
          rw [if_neg (by simp), hpath, exec_bind]
          rcases hexec : exec (headerAlong (next :: rest)) w with ⟨e | r, u⟩
          · rw [hexec] at hturn
            exact .failed _ _ e w u hfree hmentions hturn
          · rw [hexec] at hturn
            exact .shares _ _ r w u hfree hmentions hturn

/-- A path is looked up first; then its chain is walked, and lowered if it leads somewhere. -/
theorem converts_referredHeader (hheader : header.find? "$ref" = some (.text path))
    (specName : Document) (w : Workbench) :
    Converts document specName header w
      (exec (referredHeader document (.text path) header) w) := by
  rw [referredHeader, exec_bind_model]
  cases hget : w.model.namedReferences.get? path with
  | some index => exact .registered specName header path index w hheader hget
  | none =>
    cases hname : headerName? path with
    | none => exact .misplaced specName header path w hheader hget hname
    | some name =>
      have hwalk := walk_chain document header
      dsimp only
      rw [if_neg (by simp)]
      cases hchain : document.chain header with
      | error e =>
        rw [hchain] at hwalk
        have hblamed : ∃ f, (blameReference path (.error e) : Except Failure (List Link)) = .error f ∧
            (blameReference path (.error e) : Except Failure Ref) = .error f := by
          rw [blameReference, blameReference]
          split <;> exact ⟨_, rfl, rfl⟩
        obtain ⟨f, hlinks, href⟩ := hblamed
        rw [hlinks, exec_bind_error (exec_lift _ w), ← href]
        exact .broken specName header path name e w hheader hget hname hwalk
      | ok links =>
        rw [hchain] at hwalk
        rw [blameReference, exec_bind_ok (exec_lift _ w)]
        exact converts_headerAlong hwalk hheader specName w

/-- **Converting a header is taking turns**, and so it comes to an end. -/
theorem converts_convertHeader (document specName header : Document) (w : Workbench) :
    Converts document specName header w (exec (convertHeader document specName header) w) := by
  rw [convertHeader]
  cases hget : header.get? "$ref" with
  | none =>
    have hfield : exec (field header "$ref") w = (.error .malformed, w) := by
      rw [field, exec_require, hget]
      rfl
    rw [exec_bind_error hfield]
    exact .malformed specName header w (by simp [hget])
  | some reference =>
    have hfield : exec (field header "$ref") w = (.ok reference, w) := by
      rw [field, exec_require, hget]
      rfl
    rw [exec_bind_ok hfield]
    cases hnull : reference.isNull with
    | true =>
      obtain rfl : reference = .null := by
        cases reference with
        | null => rfl
        | _ => cases hnull
      exact .own specName header w hget
    | false =>
      rw [if_neg (by simp)]
      cases htext : reference.text? with
      | some path =>
        obtain rfl := Schema.eq_text_of_text? htext
        exact converts_referredHeader (find?_of_get? hget hnull) specName w
      | none =>
        have hthrow : exec (referredHeader document reference header) w = (.error .malformed, w) := by
          rw [referredHeader.eq_def]
          split
          · cases htext
          · rfl
        rw [hthrow]
        refine .malformed specName header w ?_
        rintro _ hget'
        rw [hget] at hget'
        cases hget'
        exact ⟨hnull, htext⟩

/-- **Adding a shared header is taking turns**, and so it comes to an end. -/
theorem inserts_insertComponentHeader (document specName header : Document) (w : Workbench) :
    Inserts document specName header w
      (exec (insertComponentHeader document specName header) w) := by
  rw [insertComponentHeader, exec_bind_model]
  cases hget : w.model.namedReferences.get? (headersPrefix ++ specName.display) with
  | some index => exact .registered specName header index w hget
  | none =>
    cases hmentions : header.mentions? "$ref" with
    | none =>
      refine .malformed specName header w w ?_ rfl
      cases hfields : header.fields? with
      | none => rfl
      | some fields =>
        rw [mentions?_of_fields? hfields] at hmentions
        cases hmentions
    | some mentions =>
      have hrequire : exec (require (some mentions)) w = (.ok mentions, w) := exec_require _ w
      rw [exec_bind_ok hrequire]
      cases mentions with
      | false => exact .own specName header w hget hmentions
      | true =>
        have hturn := converts_convertHeader document specName header w
        rw [if_pos rfl, exec_bind]
        rcases hexec : exec (convertHeader document specName header) w with ⟨e | r, u⟩
        · rw [hexec] at hturn
          exact .failed specName header e w u hget hmentions hturn
        · rw [hexec] at hturn
          exact .shares specName header r w u hget hmentions hturn

/-! ## Memory -/

/-- A shared header that has been added is what its path leads to. -/
theorem registeredFor_of_inserts
    (h : Inserts document specName header w (.ok r, w')) :
    RegisteredFor w'.model (headersPrefix ++ specName.display) r := by
  generalize hresult : ((.ok r, w') : Except Failure Ref × Workbench) = result at h
  cases h with
  | registered _ _ index _ hget =>
    cases hresult
    exact ⟨index, rfl, hget⟩
  | shares _ _ s _ u _ _ _ =>
    obtain ⟨_, _, hregister, hpure⟩ := of_exec_bind_ok hresult.symm
    cases hpure
    obtain ⟨index, hindex, hmodel⟩ := Leaves.of_registerPath ⟨_, _, rfl, hregister, rfl⟩
    exact ⟨index, hindex, by rw [hmodel]; exact Table.get?_insert_self _ _ _⟩
  | own => exact registeredFor_of_createShared ⟨w, w', rfl, hresult.symm, rfl⟩
  | failed | malformed => cases hresult

/-- A reference that has been converted is what its path leads to. -/
theorem registeredFor_of_converts
    (h : Converts document specName header w (.ok r, w'))
    (hheader : header.find? "$ref" = some (.text path)) : RegisteredFor w'.model path r := by
  generalize hresult : ((.ok r, w') : Except Failure Ref × Workbench) = result at h
  cases h with
  | own _ _ _ hnull =>
    rw [get?_of_find? hheader] at hnull
    cases hnull
  | registered _ _ own index _ hown hget =>
    obtain rfl : own = path := by simpa using hown.symm.trans hheader
    cases hresult
    exact ⟨index, rfl, hget⟩
  | misplaced | malformed => cases hresult
  | broken _ _ own _ e =>
    rw [blameReference] at hresult
    split at hresult <;> cases hresult
  | further _ _ _ own name _ _ _ hown _ hname _ _ hinserts =>
    obtain rfl : own = path := by simpa using hown.symm.trans hheader
    subst hresult
    exact eq_of_headerName? hname ▸ registeredFor_of_inserts hinserts

/-- A header that is a reference is converted by its path. -/
theorem exec_convertHeader_reference (hheader : header.find? "$ref" = some (.text path))
    (specName : Document) (w : Workbench) : exec (convertHeader document specName header) w =
      exec (referredHeader document (.text path) header) w := by
  have hfield : exec (field header "$ref") w = (.ok (.text path), w) := by
    rw [field, exec_require, get?_of_find? hheader]
    rfl
  rw [convertHeader, exec_bind_ok hfield, if_neg (by simp [isNull])]

/-- A registered path is answered from the table, whatever the document says. -/
theorem exec_convertHeader_of_registered {index : Int}
    (hheader : header.find? "$ref" = some (.text path))
    (hget : w.model.namedReferences.get? path = some index) :
    exec (convertHeader document specName header) w = (.ok (.back index), w) := by
  rw [exec_convertHeader_reference hheader, referredHeader, exec_bind_model, hget]
  rfl

/-- Any other path has to have the form of one of a shared header. -/
theorem exec_convertHeader_of_misplaced (hheader : header.find? "$ref" = some (.text path))
    (hget : w.model.namedReferences.get? path = none) (hname : headerName? path = none) :
    exec (convertHeader document specName header) w =
      (.error ⟨.unknownReference path, none⟩, w) := by
  rw [exec_convertHeader_reference hheader, referredHeader, exec_bind_model, hget]
  dsimp only
  rw [hname]
  rfl

theorem exec_insertComponentHeader_of_registered {index : Int}
    (hget : w.model.namedReferences.get? (headersPrefix ++ specName.display) = some index) :
    exec (insertComponentHeader document specName header) w = (.ok (.back index), w) := by
  rw [insertComponentHeader, exec_bind_model, hget]
  rfl

/-- A reference into a cycle is blamed, unless the table has an answer to it. -/
theorem exec_convertHeader_of_cyclic (hheader : header.find? "$ref" = some (.text path))
    (hcyclic : document.Cyclic path) (hget : w.model.namedReferences.get? path = none) :
    ∃ cause, exec (convertHeader document specName header) w =
      (.error ⟨.unknownReference path, cause⟩, w) := by
  have hturn := converts_convertHeader document specName header w
  generalize hresult : exec (convertHeader document specName header) w = result at hturn
  cases hturn with
  | own _ _ _ hnull =>
    rw [get?_of_find? hheader] at hnull
    cases hnull
  | registered _ _ own index _ hown hknown =>
    obtain rfl : own = path := by simpa using hown.symm.trans hheader
    rw [hget] at hknown
    cases hknown
  | misplaced _ _ own _ hown =>
    obtain rfl : own = path := by simpa using hown.symm.trans hheader
    exact ⟨none, rfl⟩
  | broken _ _ own _ e _ hown _ _ hwalk =>
    obtain rfl : own = path := by simpa using hown.symm.trans hheader
    obtain ⟨met, hmet⟩ := hwalk.circular_of_cyclic hheader hcyclic
    cases hmet
    exact ⟨_, rfl⟩
  | further _ _ _ _ _ links _ _ _ _ _ hwalk =>
    obtain ⟨met, hmet⟩ := hwalk.circular_of_cyclic hheader hcyclic
    cases hmet
  | malformed _ _ _ hno =>
    obtain ⟨_, htext⟩ := hno _ (get?_of_find? hheader)
    cases htext

/-- A shared header that fails to be converted is not added. -/
theorem exec_insertComponentHeader_error {e : Failure} {reference : Document}
    (hheader : header.find? "$ref" = some reference)
    (hget : w.model.namedReferences.get? (headersPrefix ++ specName.display) = none)
    (hconvert : exec (convertHeader document specName header) w = (.error e, w')) :
    exec (insertComponentHeader document specName header) w = (.error e, w') := by
  obtain ⟨fields, rfl⟩ := exists_fields_of_find? hheader
  have hmentions : exec (require ((object fields).mentions? "$ref")) w = (.ok true, w) := by
    rw [exec_require, mentions?_of_fields? rfl, hheader]
    rfl
  rw [insertComponentHeader, exec_bind_model, hget]
  dsimp only
  rw [exec_bind_ok hmentions, if_pos rfl, exec_bind_error hconvert]

/-- **References to headers come to an end and are remembered.** Converting a header and adding a
shared one are always derived by turns. A reference into a cycle is unknown, unless its path is
registered, by which it is answered without a look at the document. A reference that is answered
has its path registered for the answer; and whatever is called later, every reference to that path
and every shared header with that path has the same answer, which changes nothing. -/
theorem headerReferences_remembered (document specName header : Document) (w : Workbench) :
    Converts document specName header w (exec (convertHeader document specName header) w) ∧
    Inserts document specName header w (exec (insertComponentHeader document specName header) w) ∧
    ∀ path, header.find? "$ref" = some (.text path) →
      (document.Cyclic path → w.model.namedReferences.get? path = none →
        ∃ cause,
          exec (convertHeader document specName header) w =
            (.error ⟨.unknownReference path, cause⟩, w) ∧
          (w.model.namedReferences.get? (headersPrefix ++ specName.display) = none →
            exec (insertComponentHeader document specName header) w =
              (.error ⟨.unknownReference path, cause⟩, w))) ∧
      ∀ r w', exec (convertHeader document specName header) w = (.ok r, w') →
        ∃ index, r = .back index ∧ w'.model.namedReferences.get? path = some index ∧
          ∀ later : List Call, let u := Call.after later w'
            (∀ document' specName' header', header'.find? "$ref" = some (.text path) →
              exec (convertHeader document' specName' header') u = (.ok r, u)) ∧
            ∀ document' specName' header', headersPrefix ++ specName'.display = path →
              exec (insertComponentHeader document' specName' header') u = (.ok r, u) := by
  refine ⟨converts_convertHeader .., inserts_insertComponentHeader .., fun path hheader =>
    ⟨fun hcyclic hfree => ?_, fun r w' hexec => ?_⟩⟩
  · obtain ⟨cause, hconvert⟩ : ∃ cause, exec (convertHeader document specName header) w =
        (.error ⟨.unknownReference path, cause⟩, w) :=
      exec_convertHeader_of_cyclic hheader hcyclic hfree
    exact ⟨cause, hconvert, fun hown => exec_insertComponentHeader_error hheader hown hconvert⟩
  · have hturn := converts_convertHeader document specName header w
    have hplaced := ((convertHeader_along (S := .anything) document specName header).runs
      (Call.sound_anything _) w rfl).2 r (congrArg Prod.fst hexec)
    rw [hexec] at hturn
    obtain ⟨index, hindex, hget⟩ := registeredFor_of_converts hturn hheader
    obtain ⟨_, hback⟩ := hplaced.back
    subst hback
    cases hindex
    refine ⟨index, rfl, hget, fun later => ?_⟩
    have hlater := Table.get?_of_prefix (Call.kept_by_calls later w').paths hget
    exact ⟨fun document' specName' header' h => exec_convertHeader_of_registered h hlater,
      fun document' specName' header' h => exec_insertComponentHeader_of_registered (h ▸ hlater)⟩

/-! ## A chain and a cycle -/

/-- A header that refers to a shared header. -/
def headerReference (name : String) : Document :=
  .object [(.text "$ref", .text (headersPrefix ++ name))]

/-- A document with a shared header, a chain of two that leads to it, and two that lead to each
other. -/
def chainedDocument : Document :=
  .object [(.text "components", .object [(.text "headers", .object [
    (.text "Total", .object [(.text "schema", .object [(.text "type", .text "integer")])]),
    (.text "Count", headerReference "Total"),
    (.text "Size", headerReference "Count"),
    (.text "Ping", headerReference "Pong"),
    (.text "Pong", headerReference "Ping")])])]

/-- The two that lead to each other are a cycle. -/
theorem chainedDocument_cyclic : chainedDocument.Cyclic (headersPrefix ++ "Ping") := by
  have hping : chainedDocument.Refers (headersPrefix ++ "Ping") (headersPrefix ++ "Pong") :=
    ⟨headerReference "Pong", by rfl, by rfl⟩
  have hpong : chainedDocument.Refers (headersPrefix ++ "Pong") (headersPrefix ++ "Ping") :=
    ⟨headerReference "Ping", by rfl, by rfl⟩
  exact ⟨_, .refl, .tail (.single hping) hpong⟩

/-- The chain is lowered once, and every later reference to its start has the same item; the cycle
is unknown. -/
theorem chainedDocument_remembered :
    (∃ cause, exec (convertHeader chainedDocument (.text "X-Ping") (headerReference "Ping")) {} =
      (.error ⟨.unknownReference (headersPrefix ++ "Ping"), cause⟩, {})) ∧
    ∃ w', exec (convertHeader chainedDocument (.text "X-Size") (headerReference "Size")) {} =
        (.ok (.back 0), w') ∧
      w'.model.size = 1 ∧ w'.model.namedReferences.get? (headersPrefix ++ "Size") = some 0 ∧
      ∀ later, exec (insertComponentHeader chainedDocument (.text "Size") (headerReference "Count"))
        (Call.after later w') = (.ok (.back 0), Call.after later w') := by
  obtain ⟨_, _, hping⟩ :=
    headerReferences_remembered chainedDocument (.text "X-Ping") (headerReference "Ping") {}
  obtain ⟨_, _, hsize⟩ :=
    headerReferences_remembered chainedDocument (.text "X-Size") (headerReference "Size") {}
  obtain ⟨cause, hunknown, _⟩ := (hping _ rfl).1 chainedDocument_cyclic rfl
  refine ⟨⟨cause, hunknown⟩, ?_⟩
  have hcount : (exec (convertHeader chainedDocument (.text "X-Size") (headerReference "Size"))
      {}).2.model.size = 1 := by decide +kernel
  have hanswer : (exec (convertHeader chainedDocument (.text "X-Size") (headerReference "Size"))
      {}).1.toOption = some (.back 0) := by decide +kernel
  rcases hrun : exec (convertHeader chainedDocument (.text "X-Size") (headerReference "Size")) {}
    with ⟨_ | r, w'⟩
  · rw [hrun] at hanswer
    cases hanswer
  · rw [hrun] at hanswer hcount
    cases hanswer
    obtain ⟨_, hindex, hget, hlater⟩ := (hsize _ rfl).2 _ _ hrun
    cases hindex
    exact ⟨w', rfl, hcount, hget, fun later => (hlater later).2 _ _ _ rfl⟩

/-- On a model that has an item under the path of a header on the cycle, a reference to that header
is answered. -/
theorem registeredCycle_answered :
    ∃ w, (exec (addScalar "Ping" "Ping" (some (headersPrefix ++ "Ping")) .string) {}).2 = w ∧
      chainedDocument.Cyclic (headersPrefix ++ "Ping") ∧
      exec (convertHeader chainedDocument (.text "X-Ping") (headerReference "Ping")) w =
        (.ok (.back 0), w) := by
  refine ⟨_, rfl, chainedDocument_cyclic, exec_convertHeader_of_registered rfl ?_⟩
  decide +kernel

end TypedApi.Operation
