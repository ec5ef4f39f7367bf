import TypedApi.Command.Run
import TypedApi.Proofs.Settings.Precedence
import TypedApi.Proofs.Settings.Stored
/-!
Changing a stored setting.

A line that changes a setting ends in one of two ways. Either the setting is the value
that the text says for it, no other setting has changed, and the exit code says that all
is well; or nothing that is stored has changed, and the exit code says that the line was no
good. The second is how a line ends whose key names no setting, or names the one integer
with a text that spells none.

It is not how a line ends that has no word for true or false for a flag: every text that
is no word for true turns a flag off, although a variable of the environment is refused
for it.
-/

set_option autoImplicit false

namespace TypedApi

/-! # Running an action -/

namespace Interaction

variable {α β : Type}

/-- What an action comes to in a session: its answer, and the session afterwards. -/
def exec (x : Interaction α) (σ : Session) : Except Stop α × Session :=
  x.run.run σ

/-- The second part of a sequence runs in the session that the first one leaves. -/
theorem exec_bind (x : Interaction α) (f : α → Interaction β) (σ : Session) :
    exec (x >>= f) σ =
      match exec x σ with
      | (.ok a, σ') => exec (f a) σ'
      | (.error stop, σ') => (.error stop, σ') := by
  simp only [exec, ExceptT.run, bind, ExceptT.bind, ExceptT.mk, StateT.bind, StateT.run]
  show (match x σ with | (a, s) => _) = _
  rcases x σ with ⟨_ | _, _⟩ <;> rfl

/-- A handler runs in the session in which an action has stopped. -/
theorem exec_tryCatch (x : Interaction α) (handle : Stop → Interaction α) (σ : Session) :
    exec (tryCatch x handle) σ =
      match exec x σ with
      | (.ok a, σ') => (.ok a, σ')
      | (.error stop, σ') => exec (handle stop) σ' := by
  simp only [exec, tryCatch, tryCatchThe, MonadExceptOf.tryCatch, ExceptT.tryCatch, ExceptT.run,
    ExceptT.mk, bind, StateT.bind, StateT.run]
  show (match x σ with | (a, s) => _) = _
  rcases x σ with ⟨_ | _, _⟩ <;> rfl

@[simp] theorem exec_get (σ : Session) : exec (get : Interaction Session) σ = (.ok σ, σ) := rfl

@[simp] theorem exec_workspace (σ : Session) : exec workspace σ = (.ok σ.workspace, σ) := rfl

@[simp] theorem exec_lift_ok (a : α) (σ : Session) : exec (lift (.ok a)) σ = (.ok a, σ) := rfl

/-- A change of the workspace. -/
theorem exec_change {step : Workspace → Except Failure Workspace} {σ : Session} {w : Workspace}
    (h : step σ.workspace = .ok w) : exec (change step) σ = (.ok (), { σ with workspace := w }) := by
  rw [change, exec_bind, exec_workspace]
  dsimp only
  rw [h, exec_bind, exec_lift_ok]
  rfl

end Interaction

/-! # Changing a setting -/

namespace Setting

/-- What a text says for a setting. Any text says something for a flag. -/
inductive Takes (value : String) : Setting → Value → Prop
  | flag (x : Setting) : x ≠ .cacheTtl → x ≠ .format →
    Takes value x (.flag (decide (Text.lower value ∈ Settings.onWords)))
  | count (n : Int) : Text.Spelling value n → Takes value .cacheTtl (.count n)
  | text : Takes value .format (.text value)

/-- A text says no two things for a setting. -/
theorem Takes.unique {value : String} {x : Setting} {v v' : Value} (h : Takes value x v)
    (h' : Takes value x v') : v = v' := by
  cases h with
  | flag _ hcount htext =>
    cases h' with
    | flag => rfl
    | count => exact absurd rfl hcount
    | text => exact absurd rfl htext
  | count n hn =>
    cases h' with
    | flag _ hcount => exact absurd rfl hcount
    | count n' hn' =>
      have hsame := (Text.integer?_eq_some_iff.mpr hn).symm.trans (Text.integer?_eq_some_iff.mpr hn')
      rw [Option.some.inj hsame]
  | text =>
    cases h' with
    | flag _ _ htext => exact absurd rfl htext
    | text => rfl

/-- The setting at a path is the one that has it. -/
theorem ofPath?_eq_some_iff {p : List String} {x : Setting} : ofPath? p = some x ↔ x.path = p := by
  constructor
  · intro h
    simpa using List.find?_some h
  · rintro rfl
    cases x <;> decide

end Setting

/-- A word that a variable is read by, without blank characters around it, says the same here. -/
theorem Setting.Takes.of_flagSays {value : String} {x : Setting} {b : Bool}
    (hcount : x ≠ .cacheTtl) (htext : x ≠ .format) (hstrip : Text.strip value = value)
    (h : Settings.FlagSays value (some b)) : Takes value x (.flag b) := by
  have hon : ∀ word ∈ Settings.trueFlags, decide (word ∈ Settings.onWords) = true := by decide
  have hoff : ∀ word ∈ Settings.falseFlags, decide (word ∈ Settings.onWords) = false := by decide
  have hflag : Takes value x _ := .flag x hcount htext
  cases h with
  | on hword =>
    rw [hstrip] at hword
    rwa [hon _ hword] at hflag
  | off hword =>
    rw [hstrip] at hword
    rwa [hoff _ hword] at hflag

namespace Settings

open Setting (Takes Value namesOf)

variable {s t : Settings} {x : Setting} {key value : String} {edited : Edited}

/-- One setting is changed to what a text says for it, and no other is. -/
def IsChanged (s t : Settings) (key value : String) : Prop :=
  ∃ x v, x.path = namesOf key ∧ Takes value x v ∧ t.get x = v ∧ ∀ y, y ≠ x → t.get y = s.get y

/-- **A setting that is changed** is what the text says for it. -/
theorem editSetting_ok (h : s.editSetting key value x = .ok edited) :
    ∃ v, Takes value x v ∧ edited.settings.get x = v ∧
      ∀ y, y ≠ x → edited.settings.get y = s.get y := by
  have hflag : ∀ change : Bool → Settings, (editFlag value change).settings =
      change (decide (Text.lower value ∈ onWords)) := by
    intro change
    rw [editFlag, List.contains_eq_mem]
  cases x with
  | cacheTtl =>
    rw [editSetting] at h
    split at h
    · rename_i n hn
      cases h
      refine ⟨_, .count n (Text.integer?_eq_some_iff.mp hn), rfl, fun y hy => ?_⟩
      cases y <;> first | rfl | exact absurd rfl hy
    · cases h
  | format =>
    cases h
    refine ⟨_, .text, rfl, fun y hy => ?_⟩
    cases y <;> first | rfl | exact absurd rfl hy
  | _ =>
    cases h
    refine ⟨_, .flag _ (by decide) (by decide), by rw [hflag]; rfl, fun y hy => ?_⟩
    rw [hflag]
    cases y <;> first | rfl | exact absurd rfl hy

/-- A setting that cannot be changed takes an integer, and the text spells none. -/
theorem editSetting_error {problem : EditProblem}
    (h : s.editSetting key value x = .error problem) : ¬∃ v, Takes value x v := by
  cases x with
  | cacheTtl =>
    rw [editSetting] at h
    split at h
    · cases h
    · rename_i hnone
      rintro ⟨_, htakes⟩
      cases htakes with
      | flag _ hne => exact hne rfl
      | count n hn =>
        rw [Text.integer?_eq_some_iff.mpr hn] at hnone
        cases hnone
  | _ => cases h

/-- What a setting is after a change. -/
theorem IsChanged.get_eq {v : Value} (h : IsChanged s t key value) (hx : x.path = namesOf key)
    (htakes : Takes value x v) : t.get x = v := by
  obtain ⟨x', v', hx', htakes', hget, _⟩ := h
  rw [← Setting.ofPath?_eq_some_iff] at hx hx'
  obtain rfl := Option.some.inj (hx.symm.trans hx')
  rw [hget, htakes'.unique htakes]

theorem isChanged_of_edit (h : s.edit key value = .ok edited) :
    IsChanged s edited.settings key value := by
  rw [edit] at h
  split at h
  · rename_i x hx
    obtain ⟨v, htakes, hget, hothers⟩ := editSetting_ok h
    exact ⟨x, v, Setting.ofPath?_eq_some_iff.mp hx, htakes, hget, hothers⟩
  · split at h <;> cases h

theorem not_takes_of_edit {problem : EditProblem} (h : s.edit key value = .error problem) :
    ¬∃ x v, x.path = namesOf key ∧ Takes value x v := by
  rintro ⟨x, v, hx, htakes⟩
  rw [edit, Setting.ofPath?_eq_some_iff.mpr hx] at h
  exact editSetting_error h ⟨v, htakes⟩

/-- What can be stored still can after a change. -/
theorem IsStorable.of_isChanged (h : IsStorable s) (hvalue : Text.AreWhole value.toList)
    (hchanged : IsChanged s t key value) : IsStorable t := by
  obtain ⟨x, v, _, htakes, hget, hothers⟩ := hchanged
  constructor
  · by_cases hx : x = .format
    · subst hx
      cases htakes with
      | flag _ _ hne => exact absurd rfl hne
      | text => rw [Value.text.inj hget]; exact hvalue
    · rw [Value.text.inj (hothers .format (Ne.symm hx))]
      exact h.format
  · by_cases hx : x = .cacheTtl
    · subst hx
      cases htakes with
      | flag _ hne => exact absurd rfl hne
      | count n hn => rw [Value.count.inj hget]; exact hn.natAbs_lt
    · rw [Value.count.inj (hothers .cacheTtl (Ne.symm hx))]
      exact h.ttl

end Settings

namespace Command

open Interaction (exec exec_bind exec_change exec_tryCatch)

variable {w : Workspace} {σ : Session} {before : Settings} {key value : String}
  {args : List String} {choice : ConsoleChoice} {task : Task}

/-- A directory that is used is there. -/
theorem exec_useDirectory {w' : Workspace} {d : Directory}
    (h : σ.workspace.makeFolder (d.path σ.workspace) = .ok w') :
    exec (useDirectory d) σ = (.ok (d.path σ.workspace), { σ with workspace := w' }) := by
  rw [useDirectory, exec_bind, Interaction.exec_workspace]
  dsimp only
  rw [exec_bind, exec_change h]
  rfl

/-- The settings that are loaded. -/
theorem exec_storedSettings {w' : Workspace} {s : Settings}
    (hmade : σ.workspace.makeFolder (Directory.config.path σ.workspace) = .ok w')
    (hstored : Settings.stored w' = .ok s) :
    exec storedSettings σ = (.ok s, { σ with workspace := w' }) := by
  rw [storedSettings, exec_bind, exec_useDirectory hmade]
  dsimp only
  rw [exec_bind, Interaction.exec_workspace]
  dsimp only
  rw [hstored]
  rfl

/-- A remark stops nothing, and changes nothing in the workspace. -/
theorem exec_success (message : String) (σ : Session) :
    ∃ σ', exec (Console.success message) σ = (.ok (), σ') ∧ σ'.workspace = σ.workspace := by
  rw [Console.success, Console.info, exec_bind, Interaction.exec_get]
  dsimp only
  split
  · exact ⟨_, rfl, rfl⟩
  · exact ⟨_, rfl, rfl⟩

/-- **Changing a setting** changes it, or stops with the exit code for a line that is no good and
stores nothing. -/
theorem exec_changeSetting (h : Settings.Keeps σ.workspace before)
    (hvalue : Text.AreWhole value.toList) :
    ∃ σ',
      (exec (changeSetting key value) σ = (.ok (), σ') ∧
        ∃ after, Settings.Keeps σ'.workspace after ∧ Settings.IsChanged before after key value) ∨
      (exec (changeSetting key value) σ = (.error (.exit 2), σ') ∧
        σ'.workspace.files = σ.workspace.files ∧ Settings.Keeps σ'.workspace before ∧
        ¬∃ x v, x.path = Setting.namesOf key ∧ Setting.Takes value x v) := by
  obtain ⟨more, hmade, hstored, hfolder⟩ := h.exists_made
  have hkeeps := h.made hmade
  rw [changeSetting, exec_bind, exec_storedSettings hmade hstored]
  dsimp only
  cases hedit : before.edit key value with
  | error problem =>
    refine ⟨_, .inr ⟨rfl, rfl, hkeeps, Settings.not_takes_of_edit hedit⟩⟩
  | ok edited =>
    have hchanged := Settings.isChanged_of_edit hedit
    obtain ⟨w', hsave, hkept⟩ := hkeeps.save hfolder (h.isStorable.of_isChanged hvalue hchanged)
    dsimp only
    rw [exec_bind, exec_change hsave]
    dsimp only
    obtain ⟨σ', hsuccess, hworkspace⟩ := exec_success ("Set " ++ key ++ " = " ++ edited.shown) _
    refine ⟨σ', .inl ⟨hsuccess, edited.settings, ?_, hchanged⟩⟩
    rw [hworkspace]
    exact hkept

/-! # Running a line -/

/-- A line whose actions all answer ends well. -/
theorem run_of_ok (h : exec (interpret args) { workspace := w } = (.ok (), σ)) :
    run args w = (0, σ) := by
  change (codeOf (exec (tryCatch (interpret args) finish) { workspace := w }).1,
    (exec (tryCatch (interpret args) finish) { workspace := w }).2) = _
  rw [exec_tryCatch, h]
  rfl

/-- A line ends with the exit code that an action stops with. -/
theorem run_of_exit {code : Nat}
    (h : exec (interpret args) { workspace := w } = (.error (.exit code), σ)) :
    run args w = (code, σ) := by
  change (codeOf (exec (tryCatch (interpret args) finish) { workspace := w }).1,
    (exec (tryCatch (interpret args) finish) { workspace := w }).2) = _
  rw [exec_tryCatch, h]
  rfl

/-- What a line asks for, and of what console. -/
def Asks (args : List String) (choice : ConsoleChoice) (task : Task) : Prop :=
  ∃ line topic rest, Topic.program.read args = .ok line ∧
    Topic.program.command line = .ok (topic, rest) ∧ consoleChoice line = choice ∧
      readTask topic rest = .ok task

/-- There is a form in which to write: the line says which, or the settings in effect name one. -/
def HasStyle (choice : ConsoleChoice) (w : Workspace) : Prop :=
  choice.style.isSome = true ∨ ∃ w' s, w.makeFolder (Directory.config.path w) = .ok w' ∧
    Settings.resolve w' {} = .ok s ∧ (Console.Style.ofSetting? s.format).isSome = true

/-- The settings in effect. -/
theorem exec_settingsWith {w' : Workspace} {s : Settings} {overrides : Settings.Overrides}
    (hmade : σ.workspace.makeFolder (Directory.config.path σ.workspace) = .ok w')
    (hresolve : Settings.resolve w' overrides = .ok s) :
    exec (settingsWith overrides) σ = (.ok s, { σ with workspace := w' }) := by
  rw [settingsWith, exec_bind, exec_useDirectory hmade]
  dsimp only
  rw [exec_bind, Interaction.exec_workspace]
  dsimp only
  rw [hresolve]
  rfl

/-- The console is set up, and no more of the workspace has changed than that there is a directory
for settings. -/
theorem exec_prepare (h : HasStyle choice w) :
    ∃ σ, exec (prepare choice) { workspace := w } = (.ok (), σ) ∧
      (σ.workspace = w ∨ w.makeFolder (Directory.config.path w) = .ok σ.workspace) := by
  have hsetUp : ∃ σ, exec (setUpConsole choice) { workspace := w } = (.ok (), σ) ∧
      (σ.workspace = w ∨ w.makeFolder (Directory.config.path w) = .ok σ.workspace) := by
    rw [setUpConsole]
    cases hstyle : choice.style with
    | some style => exact ⟨_, rfl, .inl rfl⟩
    | none =>
      obtain hsome | ⟨w', s, hmade, hresolve, hknown⟩ := h
      · rw [hstyle] at hsome
        cases hsome
      · obtain ⟨style, hformat⟩ := Option.isSome_iff_exists.mp hknown
        dsimp only
        rw [exec_bind, exec_settingsWith hmade hresolve]
        dsimp only
        rw [hformat]
        exact ⟨_, rfl, .inr hmade⟩
  obtain ⟨σ, hok, hworkspace⟩ := hsetUp
  refine ⟨σ, ?_, hworkspace⟩
  rw [prepare, exec_tryCatch, hok]

theorem exec_orAnswer {α : Type} (a : α) (σ : Session) :
    exec (orAnswer (.ok a)) σ = (.ok a, σ) := rfl

/-- A line does what it asks for once the console is set up. -/
theorem exec_interpret (hasks : Asks args choice task)
    (hready : exec (prepare choice) { workspace := w } = (.ok (), σ)) :
    exec (interpret args) { workspace := w } = exec (perform task) σ := by
  obtain ⟨line, topic, rest, hread, hcommand, rfl, htask⟩ := hasks
  rw [interpret, hread, exec_bind, exec_orAnswer]
  dsimp only
  rw [hcommand, exec_bind, exec_orAnswer]
  dsimp only
  rw [exec_bind, hready]
  dsimp only
  rw [htask, exec_bind, exec_orAnswer]

/-- **A line ends as its task does**, once the console is set up. -/
theorem run_of_perform (hasks : Asks args choice task) (hstyle : HasStyle choice w) :
    ∃ ready : Session,
      (ready.workspace = w ∨ w.makeFolder (Directory.config.path w) = .ok ready.workspace) ∧
      ∀ σ, (exec (perform task) ready = (.ok (), σ) → run args w = (0, σ)) ∧
        ∀ code, exec (perform task) ready = (.error (.exit code), σ) → run args w = (code, σ) := by
  obtain ⟨ready, hready, hworkspace⟩ := exec_prepare hstyle
  have hinterpret := exec_interpret hasks hready
  exact ⟨ready, hworkspace, fun σ =>
    ⟨fun hok => run_of_ok (hinterpret.trans hok),
      fun code hexit => run_of_exit (hinterpret.trans hexit)⟩⟩

/-- **A line that changes a setting** ends well, with the setting changed and no other, exactly if
the key names a setting and the text says something for it. Otherwise the exit code says that the
line was no good, and nothing that is stored has changed. The text has no two halves of a pair side
by side: an argument of a line has them joined. -/
theorem run_configSet (hasks : Asks args choice (.configSet key value)) (hstyle : HasStyle choice w)
    (hkeeps : Settings.Keeps w before) (hvalue : Text.AreWhole value.toList) :
    ((run args w).1 = 0 ∧
      ∃ after, Settings.Keeps (run args w).2.workspace after ∧
        Settings.IsChanged before after key value) ∨
    ((run args w).1 = 2 ∧ (run args w).2.workspace.files = w.files ∧
      Settings.Keeps (run args w).2.workspace before ∧
      ¬∃ x v, x.path = Setting.namesOf key ∧ Setting.Takes value x v) := by
  obtain ⟨ready, hworkspace, hruns⟩ := run_of_perform hasks hstyle
  obtain ⟨hready, hreadyFiles⟩ := hkeeps.prepared hworkspace
  obtain ⟨σ, ⟨hok, hafter⟩ | ⟨hexit, hfiles, hsame, hnone⟩⟩ :=
    @exec_changeSetting ready before key value hready hvalue
  · rw [(hruns σ).1 hok]
    exact .inl ⟨rfl, hafter⟩
  · rw [(hruns σ).2 2 hexit]
    exact .inr ⟨rfl, hfiles.trans hreadyFiles, hsame, hnone⟩

/-- Without any file the settings are the defaults. -/
theorem keeps_default : Settings.Keeps {} {} := by
  have hmade : ∃ w', ({} : Workspace).makeFolder (Directory.config.path {}) = .ok w' ∧
      Settings.stored w' = .ok {} ∧ w'.isFolder (Settings.storedPlace w') = false :=
    ⟨_, rfl, by rfl, by decide⟩
  obtain ⟨w', hw', hstored, hfree⟩ := hmade
  refine ⟨⟨w', hw', hstored⟩, fun w'' hw'' => ?_, by decide⟩
  obtain rfl := Except.ok.inj (hw'.symm.trans hw'')
  exact hfree

/-- The line for a change without any switch. -/
def setLine (key value : String) : List String :=
  ["config", "set", key, value]

/-- A line without switches, where there is no file, is answered in the default form. -/
theorem hasStyle_default : HasStyle (consoleChoice {}) {} :=
  .inr ⟨_, {}, rfl, by rfl, by decide⟩

/-- A line that sets the seconds of the cache. -/
theorem run_configSet_ttl :
    (run (setLine "generator.docs_cache.ttl_seconds" "600") {}).1 = 0 ∧
      ∃ after, Settings.Loads
        (run (setLine "generator.docs_cache.ttl_seconds" "600") {}).2.workspace after ∧
          after.docsCache.ttlSeconds = 600 := by
  have hasks : Asks (setLine "generator.docs_cache.ttl_seconds" "600") (consoleChoice {})
      (.configSet "generator.docs_cache.ttl_seconds" "600") :=
    ⟨_, _, _, by rfl, by rfl, by rfl, by rfl⟩
  have htakes : Setting.Takes "600" .cacheTtl (.count 600) :=
    .count 600 (Text.integer?_eq_some_iff.mp (by decide))
  have hpath : Setting.path .cacheTtl = Setting.namesOf "generator.docs_cache.ttl_seconds" := by
    decide
  obtain ⟨hcode, after, hkeeps, hchanged⟩ | ⟨_, _, _, hnone⟩ :=
    run_configSet hasks hasStyle_default keeps_default (by decide)
  · exact ⟨hcode, after, hkeeps.loads, Setting.Value.count.inj (hchanged.get_eq hpath htakes)⟩
  · exact absurd ⟨_, _, hpath, htakes⟩ hnone

/-- A flag is turned off by a word that no variable may have for it. -/
theorem emitDocs_maybe :
    (¬∃ b, Settings.FlagSays "maybe" b) ∧ (run (setLine "generator.emit_docs" "maybe") {}).1 = 0 ∧
      ∃ after, Settings.Loads (run (setLine "generator.emit_docs" "maybe") {}).2.workspace after ∧
        after.options.emitDocs = false := by
  have hasks : Asks (setLine "generator.emit_docs" "maybe") (consoleChoice {})
      (.configSet "generator.emit_docs" "maybe") :=
    ⟨_, _, _, by rfl, by rfl, by rfl, by rfl⟩
  have htakes : Setting.Takes "maybe" .emitDocs (.flag false) :=
    .flag .emitDocs (by decide) (by decide)
  have hpath : Setting.path .emitDocs = Setting.namesOf "generator.emit_docs" := by decide
  constructor
  · rintro ⟨b, h⟩
    have hread := (@Settings.flagOf_eq_ok_iff "maybe" "" b).mpr h
    cases hread
  · obtain ⟨ready, hworkspace, hruns⟩ := run_of_perform hasks hasStyle_default
    obtain ⟨hready, _⟩ := keeps_default.prepared hworkspace
    obtain ⟨σ, ⟨hok, after, hkeeps, hchanged⟩ | ⟨_, _, _, hnone⟩⟩ :=
      @exec_changeSetting ready {} "generator.emit_docs" "maybe" hready (by decide)
    · rw [(hruns σ).1 hok]
      exact ⟨rfl, after, hkeeps.loads, Setting.Value.flag.inj (hchanged.get_eq hpath htakes)⟩
    · exact absurd ⟨_, _, hpath, htakes⟩ hnone

end Command

end TypedApi
