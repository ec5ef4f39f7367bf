import TypedApi.Proofs.Build.Run
import TypedApi.Proofs.Document.Json.Made
import TypedApi.Proofs.Settings.Fields
import TypedApi.Settings.Store
/-!
Which layer decides a setting.

Four layers say what the settings in effect are: the flags of the command line, the
variables of the environment, the file of a project and the stored settings. Each may
say something on a setting or nothing, and the settings in effect are, one by one, what
the first of the four says that says anything, or else the default.

They come together in three different ways: a file is laid over the stored settings and
read with them, variables change what was read, and flags change it again. A layer is a
function from settings to what it gives in all of these, so the ways show in the lemmas
on the steps and no longer in the result.

The settings cannot be used if a file is not good by itself or a variable spells no
Boolean. That is reported as a problem of the settings, except for a file that is nested
deeper than can be read: that fails as any document does then.
-/

set_option autoImplicit false

namespace TypedApi.Settings

open Workspace (Content)
open Setting (Value)

variable {w : Workspace} {s t : Settings} {file : Option Content} {content : Content}
  {value name : String} {b : Option Bool}

/-- What is said on each setting, if anything. -/
abbrev Layer := Setting → Option Value

/-! ## Steps -/

/-- A step that draws on a source. It answers exactly if the source gives something, with an answer
to that. It fails as a malformed document does if the source is nested too deep, and over the
settings otherwise. -/
structure DrawsOn {α β : Type} (Gives : β → Prop) (tooDeep : Prop) (Answers : α → β → Prop)
    (step : Except Failure α) : Prop where
  ok_iff : ∀ a, step = .ok a ↔ ∃ b, Gives b ∧ Answers a b
  answered : ∀ b, Gives b → ∃ a, Answers a b
  malformed_iff : step = .error .malformed ↔ tooDeep
  settings_iff : (∃ p, step = .error ⟨.settings p, none⟩) ↔ (¬∃ b, Gives b) ∧ ¬tooDeep

namespace DrawsOn

variable {α β γ δ : Type} {Gives : β → Prop} {Gives' : δ → Prop} {deep deep' : Prop}
  {Answers : α → β → Prop} {step : Except Failure α}

/-- A step that answers draws on a source that gives just this. -/
theorem of_ok {b : β} (hgives : ∀ c, Gives c ↔ c = b) (hdeep : ¬deep)
    (hanswers : ∀ a, step = .ok a ↔ Answers a b) {a : α} (hok : step = .ok a) :
    DrawsOn Gives deep Answers step where
  ok_iff a := by simp only [hgives, exists_eq_left, hanswers]
  answered c hc := ⟨a, (hgives c).mp hc ▸ (hanswers a).mp hok⟩
  malformed_iff := iff_of_false (by rw [hok]; exact nofun) hdeep
  settings_iff := by
    refine iff_of_false ?_ fun h => h.1 ⟨b, (hgives b).mpr rfl⟩
    rintro ⟨p, herror⟩
    rw [hok] at herror
    cases herror

/-- A step that fails as a malformed document does draws on a source that is nested too deep. -/
theorem of_malformed (hstep : step = .error .malformed) (hnone : ¬∃ b, Gives b) (hdeep : deep) :
    DrawsOn Gives deep Answers step where
  ok_iff a := iff_of_false (by rw [hstep]; exact nofun) fun ⟨b, hb, _⟩ => hnone ⟨b, hb⟩
  answered b hb := absurd ⟨b, hb⟩ hnone
  malformed_iff := iff_of_true hstep hdeep
  settings_iff := by
    refine iff_of_false ?_ fun h => h.2 hdeep
    rintro ⟨p, herror⟩
    rw [hstep] at herror
    cases herror

/-- A step that fails over the settings draws on a source that gives nothing. -/
theorem of_settings {p : SettingsProblem} (hstep : step = .error ⟨.settings p, none⟩)
    (hnone : ¬∃ b, Gives b) (hdeep : ¬deep) : DrawsOn Gives deep Answers step where
  ok_iff a := iff_of_false (by rw [hstep]; exact nofun) fun ⟨b, hb, _⟩ => hnone ⟨b, hb⟩
  answered b hb := absurd ⟨b, hb⟩ hnone
  malformed_iff := iff_of_false (by rw [hstep]; exact nofun) hdeep
  settings_iff := iff_of_true ⟨p, hstep⟩ ⟨hnone, hdeep⟩

/-- A source that gives something is not nested too deep. -/
theorem not_tooDeep (h : DrawsOn Gives deep Answers step) (hgives : ∃ b, Gives b) : ¬deep := by
  obtain ⟨b, hb⟩ := hgives
  obtain ⟨a, ha⟩ := h.answered b hb
  have hok := (h.ok_iff a).mpr ⟨b, hb, ha⟩
  intro hdeep
  rw [h.malformed_iff.mpr hdeep] at hok
  cases hok

/-- A step that answers draws on what is given. -/
theorem gives_of_ok (h : DrawsOn Gives deep Answers step) {a : α} (hok : step = .ok a) :
    ∃ b, Gives b := by
  obtain ⟨b, hb, _⟩ := (h.ok_iff a).mp hok
  exact ⟨b, hb⟩

/-- A step that fails has nothing to draw on. -/
theorem not_gives_of_error (h : DrawsOn Gives deep Answers step) {f : Failure}
    (herror : step = .error f) : ¬∃ b, Gives b := by
  rintro ⟨b, hb⟩
  obtain ⟨a, ha⟩ := h.answered b hb
  rw [(h.ok_iff a).mpr ⟨b, hb, ha⟩] at herror
  cases herror

/-- Without a failure of its own, a change of the answer is a change of what answers. -/
theorem map (h : DrawsOn Gives deep Answers step) (f : α → γ) :
    DrawsOn Gives deep (fun c b => ∃ a, Answers a b ∧ f a = c) (f <$> step) := by
  refine ⟨fun c => ?_, fun b hb => ?_, ?_, ?_⟩
  · constructor
    · intro hok
      obtain ⟨a, ha, rfl⟩ : ∃ a, step = .ok a ∧ f a = c := by
        cases step with
        | error f => cases hok
        | ok a => exact ⟨a, rfl, Except.ok.inj hok⟩
      obtain ⟨b, hb, hanswer⟩ := (h.ok_iff a).mp ha
      exact ⟨b, hb, a, hanswer, rfl⟩
    · rintro ⟨b, hb, a, hanswer, rfl⟩
      rw [(h.ok_iff a).mpr ⟨b, hb, hanswer⟩]
      rfl
  · obtain ⟨a, ha⟩ := h.answered b hb
    exact ⟨f a, a, ha, rfl⟩
  · rw [← h.malformed_iff]
    cases step <;> simp [Functor.map, Except.map]
  · rw [← h.settings_iff]
    cases step <;> simp [Functor.map, Except.map]

/-- The same source, told in another way. -/
theorem congr {Gives₁ : β → Prop} {deep₁ : Prop} {Answers₁ : α → β → Prop}
    (h : DrawsOn Gives deep Answers step) (hgives : ∀ b, Gives b ↔ Gives₁ b) (hdeep : deep ↔ deep₁)
    (hanswers : ∀ a b, Gives b → (Answers a b ↔ Answers₁ a b)) :
    DrawsOn Gives₁ deep₁ Answers₁ step := by
  obtain rfl : Gives = Gives₁ := funext fun b => propext (hgives b)
  obtain rfl : deep = deep₁ := propext hdeep
  refine ⟨fun a => (h.ok_iff a).trans ?_, fun b hb => ?_, h.malformed_iff, h.settings_iff⟩
  · exact exists_congr fun b => and_congr_right fun hb => hanswers a b hb
  · obtain ⟨a, ha⟩ := h.answered b hb
    exact ⟨a, (hanswers a b hb).mp ha⟩

/-- One step after another draws on both sources. The second one counts only if the first one gives
something. -/
theorem bind {next : α → Except Failure γ} {Answers' : α → γ → δ → Prop}
    (h : DrawsOn Gives deep Answers step)
    (hnext : ∀ a, DrawsOn Gives' deep' (Answers' a) (next a)) :
    DrawsOn (fun p : β × δ => Gives p.1 ∧ Gives' p.2) (deep ∨ (∃ b, Gives b) ∧ deep')
      (fun c p => ∃ a, Answers a p.1 ∧ Answers' a c p.2) (step >>= next) := by
  have hpair : (∃ p : β × δ, Gives p.1 ∧ Gives' p.2) ↔ (∃ b, Gives b) ∧ ∃ d, Gives' d :=
    ⟨fun ⟨p, h₁, h₂⟩ => ⟨⟨p.1, h₁⟩, ⟨p.2, h₂⟩⟩, fun ⟨⟨b, h₁⟩, ⟨d, h₂⟩⟩ => ⟨⟨b, d⟩, h₁, h₂⟩⟩
  have herror : ∀ f g : Failure, (.error f >>= next) = .error g ↔
      (.error f : Except Failure α) = .error g :=
    fun f g => ⟨fun heq => by cases heq; rfl, fun heq => by cases heq; rfl⟩
  refine ⟨fun c => ?_, fun p hp => ?_, ?_, ?_⟩
  · constructor
    · intro hok
      obtain ⟨a, ha, hc⟩ := of_bind_eq_ok hok
      obtain ⟨b, hb, hanswer⟩ := (h.ok_iff a).mp ha
      obtain ⟨d, hd, hanswer'⟩ := ((hnext a).ok_iff c).mp hc
      exact ⟨⟨b, d⟩, ⟨hb, hd⟩, a, hanswer, hanswer'⟩
    · rintro ⟨p, ⟨hb, hd⟩, a, hanswer, hanswer'⟩
      rw [(h.ok_iff a).mpr ⟨p.1, hb, hanswer⟩]
      exact ((hnext a).ok_iff c).mpr ⟨p.2, hd, hanswer'⟩
  · obtain ⟨a, ha⟩ := h.answered p.1 hp.1
    obtain ⟨c, hc⟩ := (hnext a).answered p.2 hp.2
    exact ⟨c, a, ha, hc⟩
  · cases step with
    | ok a =>
      have hgives := h.gives_of_ok rfl
      rw [or_iff_right (h.not_tooDeep hgives), and_iff_right hgives, ← (hnext a).malformed_iff]
      rfl
    | error f =>
      rw [or_iff_left fun hlater => h.not_gives_of_error rfl hlater.1, ← h.malformed_iff]
      exact herror f .malformed
  · rw [hpair]
    cases step with
    | ok a =>
      have hgives := h.gives_of_ok rfl
      rw [or_iff_right (h.not_tooDeep hgives), and_iff_right hgives, and_iff_right hgives,
        ← (hnext a).settings_iff]
      rfl
    | error f =>
      have hnone := h.not_gives_of_error rfl
      rw [or_iff_left fun hlater => hnone hlater.1, and_iff_right fun hboth => hnone hboth.1,
        ← and_iff_right hnone (b := ¬deep), ← h.settings_iff]
      exact exists_congr fun p => herror f _

end DrawsOn

/-! ## Files -/

/-- What a file of settings gives. Its document has to be a layer; without a file nothing is
given. -/
inductive FileGives : Option Content → Layer → Prop where
  | absent : FileGives none fun _ => none
  | present (content : Content) (text : String) (d : Document) :
    content.read? = some text → Document.Json.read text = .ok d → IsLayer d →
      FileGives (some content) (given? d)

/-- A file that is nested deeper than can be read. -/
def IsTooDeep (file : Option Content) : Prop :=
  ∃ content text, file = some content ∧ content.read? = some text ∧
    Document.Json.read text = .error .tooDeep

theorem fileGives_none_iff {layer : Layer} : FileGives none layer ↔ layer = fun _ => none :=
  ⟨fun h => by cases h; rfl, fun h => h ▸ .absent⟩

theorem not_isTooDeep_none : ¬IsTooDeep none := by
  rintro ⟨_, _, hfile, _⟩
  cases hfile

/-- The reading of a file that is read. -/
theorem fileGives_some_iff {text : String} {layer : Layer} (h : content.read? = some text) :
    FileGives (some content) layer ↔
      ∃ d, Document.Json.read text = .ok d ∧ IsLayer d ∧ layer = given? d := by
  constructor
  · intro hgives
    cases hgives with
    | present _ other d hother hread hlayer =>
      rw [h] at hother
      cases hother
      exact ⟨d, hread, hlayer, rfl⟩
  · rintro ⟨d, hread, hlayer, rfl⟩
    exact .present content text d h hread hlayer

theorem isTooDeep_some_iff {text : String} (h : content.read? = some text) :
    IsTooDeep (some content) ↔ Document.Json.read text = .error .tooDeep := by
  constructor
  · rintro ⟨_, other, ⟨⟩, hother, hdeep⟩
    rw [h] at hother
    cases hother
    exact hdeep
  · exact fun hdeep => ⟨content, text, rfl, h, hdeep⟩

/-- Reading the document of a file draws on it, with a step to follow that answers exactly the
layers and fails over the settings on all other documents. -/
theorem drawsOn_document {α : Type} {Answers : α → Layer → Prop} {problem : SettingsProblem}
    {next : Document → Except Failure α}
    (hok : ∀ d a, d.hasTextKeys = true → (next d = .ok a ↔ IsLayer d ∧ Answers a (given? d)))
    (hanswered : ∀ d, ∃ a, Answers a (given? d))
    (herror : ∀ d f, next d = .error f → ∃ p, f = ⟨.settings p, none⟩) :
    DrawsOn (FileGives (some content)) (IsTooDeep (some content)) Answers
      (documentOf problem content >>= next) := by
  unfold documentOf
  cases hcontent : content.read? with
  | none =>
    refine .of_settings (p := problem) rfl ?_ ?_
    · rintro ⟨_, hgives⟩
      cases hgives with
      | present _ text d hread =>
        rw [hcontent] at hread
        cases hread
    · rintro ⟨_, text, ⟨⟩, hread, _⟩
      rw [hcontent] at hread
      cases hread
  | some text =>
    have hgives := fun layer => @fileGives_some_iff content text layer hcontent
    have hdeep := isTooDeep_some_iff hcontent
    rw [Option.map_some]
    cases hread : Document.Json.read text with
    | error fault =>
      have hnone : ¬∃ layer, FileGives (some content) layer := by
        rintro ⟨layer, hlayer⟩
        obtain ⟨d, hd, _⟩ := (hgives layer).mp hlayer
        rw [hread] at hd
        cases hd
      cases fault with
      | tooDeep => exact .of_malformed rfl hnone (hdeep.mpr hread)
      | unreadable =>
        exact .of_settings (p := problem) rfl hnone (by rw [hdeep, hread]; exact nofun)
      | malformed =>
        exact .of_settings (p := problem) rfl hnone (by rw [hdeep, hread]; exact nofun)
    | ok d =>
      have hshallow : ¬IsTooDeep (some content) := by
        rw [hdeep, hread]
        exact nofun
      have hok := fun a => hok d a (Document.Json.hasTextKeys_of_read hread)
      by_cases hlayer : IsLayer d
      · obtain ⟨a, ha⟩ := hanswered d
        refine .of_ok (b := given? d) (fun layer => ?_) hshallow (fun c => ?_)
          ((hok a).mpr ⟨hlayer, ha⟩)
        · rw [hgives, hread]
          exact ⟨fun ⟨_, hd, _, heq⟩ => by cases hd; exact heq, fun heq => ⟨d, rfl, hlayer, heq⟩⟩
        · exact (hok c).trans (and_iff_right hlayer)
      · have hnone : ¬∃ layer, FileGives (some content) layer := by
          rintro ⟨layer, hlayer'⟩
          obtain ⟨d', hd, hgood, _⟩ := (hgives layer).mp hlayer'
          rw [hread] at hd
          cases hd
          exact hlayer hgood
        cases hnext : next d with
        | ok a => exact absurd ((hok a).mp hnext).1 hlayer
        | error f =>
          obtain ⟨p, rfl⟩ := herror d f hnext
          exact .of_settings hnext hnone hshallow

/-- **The stored settings** are what their file gives, and the defaults for the rest. -/
theorem drawsOn_stored (w : Workspace) :
    DrawsOn (FileGives (w.file? (storedPath w))) (IsTooDeep (w.file? (storedPath w)))
      (fun s layer => ∀ x, s.get x = (layer x).getD x.default) (stored w) := by
  unfold stored
  cases w.file? (storedPath w) with
  | none =>
    refine .of_ok (a := {}) (fun _ => fileGives_none_iff) not_isTooDeep_none (fun s => ?_) rfl
    constructor
    · rintro ⟨⟩
      exact get_default
    · exact fun h => congrArg _ (eq_of_get fun x => (get_default x).trans (h x).symm)
  | some content =>
    refine drawsOn_document (fun d s _ => ?_) (fun d => ?_) fun d f hf => ?_
    · rw [← ofDocument?_eq_some_iff]
      cases ofDocument? d with
      | none => exact ⟨nofun, nofun⟩
      | some t => exact ⟨fun h => by cases h; rfl, fun h => by cases h; rfl⟩
    · simpa using exists_get_given? d {}
    · cases h : ofDocument? d with
      | none =>
        rw [h] at hf
        cases hf
        exact ⟨_, rfl⟩
      | some t =>
        rw [h] at hf
        cases hf

/-- **Settings with those of a project** are what its file gives, and else what they were. -/
theorem drawsOn_withProject (w : Workspace) (s : Settings) :
    DrawsOn (FileGives (w.file? projectPath)) (IsTooDeep (w.file? projectPath))
      (fun t layer => ∀ x, t.get x = (layer x).getD (s.get x)) (project? w >>= s.withProject) := by
  unfold project?
  cases w.file? projectPath with
  | none =>
    refine .of_ok (a := s) (fun _ => fileGives_none_iff) not_isTooDeep_none (fun t => ?_) rfl
    constructor
    · rintro ⟨⟩
      exact fun _ => rfl
    · exact fun h => congrArg _ (eq_of_get fun x => (h x).symm)
  | some content =>
    dsimp only
    rw [bind_assoc]
    refine drawsOn_document (fun d t hkeys => ?_) (fun d => exists_get_given? d s) fun d f hf => ?_
    · cases hobject : d.isObject with
      | false =>
        refine iff_of_false (by rw [if_neg Bool.false_ne_true]; exact nofun) fun h => ?_
        have := h.1.sections [] d (by decide) rfl
        rw [hobject] at this
        cases this
      | true =>
        rw [← ofDocument?_layer_eq_some_iff hkeys hobject, if_pos rfl]
        change s.withProject (some d) = .ok t ↔ _
        rw [withProject]
        cases ofDocument? (s.dump.layer d) with
        | none => exact ⟨nofun, nofun⟩
        | some t => exact ⟨fun h => by cases h; rfl, fun h => by cases h; rfl⟩
    · cases hobject : d.isObject with
      | false =>
        rw [hobject, if_neg Bool.false_ne_true] at hf
        cases hf
        exact ⟨_, rfl⟩
      | true =>
        rw [hobject, if_pos rfl] at hf
        change s.withProject (some d) = .error f at hf
        rw [withProject] at hf
        cases h : ofDocument? (s.dump.layer d) with
        | none =>
          rw [h] at hf
          cases hf
          exact ⟨_, rfl⟩
        | some t =>
          rw [h] at hf
          cases hf

/-! ## Variables and flags -/

/-- What the value of a variable says about a flag, in any letter case and with blank characters
around it. -/
inductive FlagSays (value : String) : Option Bool → Prop where
  | nothing : Text.lower (Text.strip value) = "" → FlagSays value none
  | on : Text.lower (Text.strip value) ∈ trueFlags → FlagSays value (some true)
  | off : Text.lower (Text.strip value) ∈ falseFlags → FlagSays value (some false)

/-- A variable is read as what its value says. -/
theorem flagOf_eq_ok_iff : flagOf name value = .ok b ↔ FlagSays value b := by
  unfold flagOf
  dsimp only
  have hon : "" ∉ trueFlags := by decide
  have hoff : "" ∉ falseFlags := by decide
  have hapart : ∀ word ∈ trueFlags, word ∉ falseFlags := by decide
  constructor
  · intro h
    split at h
    · rename_i hword
      cases h
      exact .nothing hword
    · split at h
      · rename_i hword
        cases h
        exact .on (List.contains_iff_mem.mp hword)
      · split at h
        · rename_i hword
          cases h
          exact .off (List.contains_iff_mem.mp hword)
        · cases h
  · intro h
    cases h with
    | nothing hword => rw [if_pos hword]
    | on hword =>
      have hne : Text.lower (Text.strip value) ≠ "" := fun hempty => hon (hempty ▸ hword)
      rw [if_neg hne, if_pos (List.contains_iff_mem.mpr hword)]
    | off hword =>
      have hne : Text.lower (Text.strip value) ≠ "" := fun hempty => hoff (hempty ▸ hword)
      rw [if_neg hne,
        if_neg fun htrue => hapart _ (List.contains_iff_mem.mp htrue) hword,
        if_pos (List.contains_iff_mem.mpr hword)]

/-- A value that says nothing about a flag is reported as a problem of the settings. -/
theorem flagOf_error {f : Failure} (h : flagOf name value = .error f) :
    ∃ p, f = ⟨.settings p, none⟩ := by
  unfold flagOf at h
  dsimp only at h
  split at h
  · cases h
  · split at h
    · cases h
    · split at h
      · cases h
      · cases h
        exact ⟨_, rfl⟩

/-- The variable of a setting. -/
def variableOf? : Setting → Option String
  | .boundedIntegers => some "APIMODEL_BOUNDED_INTEGERS"
  | .fetchExternalDocs => some "APIMODEL_FETCH_DOCS"
  | .emitDocs => some "APIMODEL_EMIT_DOCS"
  | _ => none

/-- What the variables of an environment give. A setting without a variable is given nothing. -/
def EnvironmentGives (env : String → String) (layer : Layer) : Prop :=
  ∀ x, match variableOf? x with
    | some name => ∃ b, FlagSays (env name) b ∧ layer x = b.map .flag
    | none => layer x = none

/-- What overrides give for each setting. -/
def Overrides.given? (o : Overrides) : Layer
  | .boundedIntegers => o.boundedIntegers.map .flag
  | .emitDocs => o.emitDocs.map .flag
  | .fetchExternalDocs => o.fetchExternalDocs.map .flag
  | .cacheEnabled => none
  | .cacheTtl => none
  | .format => o.format.map .text

/-- There is no more to overrides than what they give. -/
theorem Overrides.given?_injective : Function.Injective Overrides.given? := by
  intro o o' h
  have hflag := Option.map_injective fun _ _ => @Value.flag.inj _ _
  have htext := Option.map_injective fun _ _ => @Value.text.inj _ _
  have hbounded := hflag (congrFun h .boundedIntegers)
  have hemit := hflag (congrFun h .emitDocs)
  have hfetch := hflag (congrFun h .fetchExternalDocs)
  have hformat := htext (congrFun h .format)
  obtain ⟨_, _, _, _⟩ := o
  obtain ⟨_, _, _, _⟩ := o'
  cases hbounded
  cases hemit
  cases hfetch
  cases hformat
  rfl

/-- Overrides stand before what the settings were. -/
theorem get_override (s : Settings) (o : Overrides) (x : Setting) :
    (s.override o).get x = (o.given? x).getD (s.get x) := by
  cases x <;> simp [override, get, Overrides.given?, Option.getD_map]

/-- The variables are read one after the other. -/
theorem environmentOverrides_eq_ok_iff {env : String → String} {o : Overrides} :
    environmentOverrides env = .ok o ↔ EnvironmentGives env o.given? := by
  have hflag := Option.map_injective fun _ _ => @Value.flag.inj _ _
  constructor
  · intro h
    obtain ⟨bounded, hbounded, h⟩ := of_bind_eq_ok h
    obtain ⟨fetch, hfetch, h⟩ := of_bind_eq_ok h
    obtain ⟨emit, hemit, h⟩ := of_bind_eq_ok h
    cases h
    intro x
    cases x with
    | boundedIntegers => exact ⟨_, flagOf_eq_ok_iff.mp hbounded, rfl⟩
    | fetchExternalDocs => exact ⟨_, flagOf_eq_ok_iff.mp hfetch, rfl⟩
    | emitDocs => exact ⟨_, flagOf_eq_ok_iff.mp hemit, rfl⟩
    | cacheEnabled => rfl
    | cacheTtl => rfl
    | format => rfl
  · intro h
    obtain ⟨bounded, hbounded, hboundedEq⟩ := h .boundedIntegers
    obtain ⟨fetch, hfetch, hfetchEq⟩ := h .fetchExternalDocs
    obtain ⟨emit, hemit, hemitEq⟩ := h .emitDocs
    have hformat : o.format = none := Option.map_eq_none_iff.mp (h .format)
    obtain ⟨_, _, _, _⟩ := o
    cases hflag hboundedEq
    cases hflag hfetchEq
    cases hflag hemitEq
    cases hformat
    unfold environmentOverrides
    dsimp only
    rw [flagOf_eq_ok_iff.mpr hbounded, flagOf_eq_ok_iff.mpr hfetch, flagOf_eq_ok_iff.mpr hemit]
    rfl

theorem environmentOverrides_error {env : String → String} {f : Failure}
    (h : environmentOverrides env = .error f) : ∃ p, f = ⟨.settings p, none⟩ := by
  unfold environmentOverrides at h
  dsimp only at h
  cases hbounded : flagOf "APIMODEL_BOUNDED_INTEGERS" (env "APIMODEL_BOUNDED_INTEGERS") with
  | error f' =>
    rw [hbounded] at h
    cases h
    exact flagOf_error hbounded
  | ok _ =>
    cases hfetch : flagOf "APIMODEL_FETCH_DOCS" (env "APIMODEL_FETCH_DOCS") with
    | error f' =>
      rw [hbounded, hfetch] at h
      cases h
      exact flagOf_error hfetch
    | ok _ =>
      cases hemit : flagOf "APIMODEL_EMIT_DOCS" (env "APIMODEL_EMIT_DOCS") with
      | error f' =>
        rw [hbounded, hfetch, hemit] at h
        cases h
        exact flagOf_error hemit
      | ok _ =>
        rw [hbounded, hfetch, hemit] at h
        cases h

/-- **The variables of an environment** are read as what they give. -/
theorem drawsOn_environment (env : String → String) :
    DrawsOn (EnvironmentGives env) False (fun o layer => o.given? = layer)
      (environmentOverrides env) := by
  have hsome : ∀ layer, EnvironmentGives env layer → ∃ o : Overrides, o.given? = layer := by
    intro layer h
    obtain ⟨bounded, _, hbounded⟩ := h .boundedIntegers
    obtain ⟨fetch, _, hfetch⟩ := h .fetchExternalDocs
    obtain ⟨emit, _, hemit⟩ := h .emitDocs
    refine ⟨⟨bounded, fetch, emit, none⟩, funext fun x => ?_⟩
    cases x with
    | boundedIntegers => exact hbounded.symm
    | fetchExternalDocs => exact hfetch.symm
    | emitDocs => exact hemit.symm
    | cacheEnabled => exact (h .cacheEnabled).symm
    | cacheTtl => exact (h .cacheTtl).symm
    | format => exact (h .format).symm
  cases hstep : environmentOverrides env with
  | ok o =>
    refine .of_ok (b := o.given?) (fun layer => ?_) not_false (fun o' => ?_) rfl
    · constructor
      · intro h
        obtain ⟨o', rfl⟩ := hsome layer h
        rw [← environmentOverrides_eq_ok_iff, hstep] at h
        cases h
        rfl
      · rintro rfl
        exact environmentOverrides_eq_ok_iff.mp hstep
    · rw [Overrides.given?_injective.eq_iff]
      exact ⟨fun h => by cases h; rfl, fun h => by rw [h]⟩
  | error f =>
    obtain ⟨p, rfl⟩ := environmentOverrides_error hstep
    refine .of_settings rfl ?_ not_false
    rintro ⟨layer, h⟩
    obtain ⟨o, rfl⟩ := hsome layer h
    rw [← environmentOverrides_eq_ok_iff, hstep] at h
    cases h

/-! ## All layers -/

/-- What the first layer says that says anything on a setting, or else its default. -/
def decided (layers : List Layer) (x : Setting) : Value :=
  (layers.findSome? fun layer => layer x).getD x.default

theorem decided_nil (x : Setting) : decided [] x = x.default := rfl

theorem decided_cons (layer : Layer) (layers : List Layer) (x : Setting) :
    decided (layer :: layers) x = (layer x).getD (decided layers x) := by
  rw [decided, List.findSome?_cons]
  cases layer x <;> rfl

/-- What the layers below the flags give. These may be bad, and flags are always good. -/
structure LayersGive (w : Workspace) (environment project stored : Layer) : Prop where
  environment : EnvironmentGives w.env environment
  project : FileGives (w.file? projectPath) project
  stored : FileGives (w.file? (storedPath w)) stored

/-- The first file that gives nothing is nested deeper than can be read. -/
def StopsTooDeep (w : Workspace) : Prop :=
  IsTooDeep (w.file? (storedPath w)) ∨
    (∃ stored, FileGives (w.file? (storedPath w)) stored) ∧ IsTooDeep (w.file? projectPath)

/-- Settings that come about in stages: as stored, with the project over that, changed by the
variables, and then by the flags. -/
def Stages (flags : Overrides) (s : Settings) (layers : Layer × Layer × Layer) : Prop :=
  ∃ base : Settings, (∀ x, base.get x = (layers.1 x).getD x.default) ∧
    ∃ layered : Settings, (∀ x, layered.get x = (layers.2.1 x).getD (base.get x)) ∧
      ∃ env : Overrides, env.given? = layers.2.2 ∧ (layered.override env).override flags = s

/-- Each stage finds what is decided by the layers so far. -/
theorem Stages.get_eq {flags : Overrides} {layers : Layer × Layer × Layer}
    (h : Stages flags s layers) (x : Setting) :
    s.get x = decided [flags.given?, layers.2.2, layers.2.1, layers.1] x := by
  obtain ⟨base, hbase, layered, hlayered, env, henv, rfl⟩ := h
  simp only [get_override, henv, hlayered, hbase, decided_cons, decided_nil]

/-- The layers as they are read, the lowest one first. -/
theorem drawsOn_resolve (w : Workspace) (flags : Overrides) :
    DrawsOn (fun layers : Layer × Layer × Layer => LayersGive w layers.2.2 layers.2.1 layers.1)
      (StopsTooDeep w)
      (fun s layers => ∀ x, s.get x = decided [flags.given?, layers.2.2, layers.2.1, layers.1] x)
      (resolve w flags) := by
  have h := (drawsOn_stored w).bind fun base => (drawsOn_withProject w base).bind fun layered =>
    (drawsOn_environment w.env).map fun env => (layered.override env).override flags
  have hresolve : resolve w flags = (stored w >>= fun base =>
      (project? w >>= base.withProject) >>= fun layered =>
        (fun env => (layered.override env).override flags) <$> environmentOverrides w.env) := by
    simp only [resolve, bind_assoc, map_eq_pure_bind]
  rw [hresolve]
  refine h.congr (fun layers => ?_) ?_ fun s layers hgive => ?_
  · exact ⟨fun ⟨hstored, hproject, henv⟩ => ⟨henv, hproject, hstored⟩,
      fun ⟨henv, hproject, hstored⟩ => ⟨hstored, hproject, henv⟩⟩
  · rw [and_false, or_false, StopsTooDeep]
  · refine ⟨fun hstages => Stages.get_eq hstages, fun hget => ?_⟩
    obtain ⟨t, ht⟩ := h.answered layers hgive
    rwa [eq_of_get fun x => (hget x).trans (Stages.get_eq ht x).symm]

/-- **The settings in effect.** They can be used exactly if all layers are good, and then each of
them is what the first of the flags, the variables, the project and the stored settings says that
says anything on it, or else its default. If some layer is not good, that is reported as a problem of
the settings, unless the first file that gives nothing is nested deeper than can be read. -/
theorem resolve_precedence (w : Workspace) (flags : Overrides) :
    (∀ s, resolve w flags = .ok s ↔ ∃ environment project stored,
      LayersGive w environment project stored ∧
        ∀ x, s.get x = decided [flags.given?, environment, project, stored] x) ∧
    ((∃ environment project stored, LayersGive w environment project stored) →
      ∃ s, resolve w flags = .ok s) ∧
    (resolve w flags = .error .malformed ↔ StopsTooDeep w) ∧
    ((∃ p, resolve w flags = .error ⟨.settings p, none⟩) ↔
      (¬∃ environment project stored, LayersGive w environment project stored) ∧
        ¬StopsTooDeep w) := by
  have h := drawsOn_resolve w flags
  have hlayers : (∃ layers : Layer × Layer × Layer, LayersGive w layers.2.2 layers.2.1 layers.1) ↔
      ∃ environment project stored, LayersGive w environment project stored :=
    ⟨fun ⟨layers, hgive⟩ => ⟨_, _, _, hgive⟩,
      fun ⟨environment, project, stored, hgive⟩ => ⟨⟨stored, project, environment⟩, hgive⟩⟩
  refine ⟨fun s => ?_, fun hgive => ?_, h.malformed_iff, ?_⟩
  · rw [h.ok_iff]
    exact ⟨fun ⟨layers, hgive, hget⟩ => ⟨_, _, _, hgive, hget⟩,
      fun ⟨environment, project, stored, hgive, hget⟩ =>
        ⟨⟨stored, project, environment⟩, hgive, hget⟩⟩
  · obtain ⟨layers, hlayers⟩ := hlayers.mpr hgive
    obtain ⟨s, hs⟩ := h.answered layers hlayers
    exact ⟨s, (h.ok_iff s).mpr ⟨layers, hlayers, hs⟩⟩
  · rw [h.settings_iff, hlayers]

/-- A project whose file opens one array too many. -/
def deepProject : Workspace :=
  { files := [("/apimodel.json",
      .text (String.ofList (List.replicate (Document.Json.maxDepth + 1) '[')))] }

/-- A file that is no JSON at all is not reported as a problem of the settings if it is nested too
deep. -/
theorem deepProject_malformed :
    resolve deepProject {} = .error .malformed ∧
      ¬∃ p, resolve deepProject {} = .error ⟨.settings p, none⟩ := by
  have hstored : FileGives (deepProject.file? (storedPath deepProject)) fun _ => none := by
    rw [show deepProject.file? (storedPath deepProject) = none by decide]
    exact .absent
  have hdeep : IsTooDeep (deepProject.file? projectPath) := by
    refine ⟨_, _, rfl, ?_, Document.Json.read_brackets⟩
    rw [Workspace.Content.read?, String.toList_ofList, Text.unifyNewlines_eq_self]
    simp
  have hfails := (drawsOn_resolve deepProject {}).malformed_iff.mpr (.inr ⟨⟨_, hstored⟩, hdeep⟩)
  refine ⟨hfails, ?_⟩
  rintro ⟨p, hsettings⟩
  rw [hfails] at hsettings
  cases hsettings

end TypedApi.Settings
