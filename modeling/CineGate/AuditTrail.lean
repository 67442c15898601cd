/-
**The audit log replays to the configuration.**

A value lives in three layers: the default, the stored row and what is effective.  A write that does
not change the effective value is not logged, and a row that equals the default may be deleted
silently; so the log of a key leads from the default to the effective value.

* `ConfigStep` — what a call can do to settings, templates and the log;
* `AdminTables.Trail` — the log of every key replays to its effective value;
* `successfulApplies`, `successfulBegins` — what calls of an owner have succeeded in a run;
* `AdminTables.audit_log_replays` — the guarantees over every run of calls.
-/

import CineGate.AdminService
import CineGate.ChangeLog
import CineGate.Transition

set_option relaxedAutoImplicit false
set_option autoImplicit false

namespace CineGate

/-! ### Values -/

theorem Json.same_comm (a b : Json) : a.same b = b.same a :=
  decide_eq_decide.2 eq_comm

theorem EntityDict.same_comm (a b : EntityDict) : a.same b = b.same a := by
  rw [Bool.eq_iff_iff]
  simp only [EntityDict.same, Bool.and_eq_true, decide_eq_true_eq, List.isPerm_iff]
  exact ⟨fun ⟨⟨hoffset, hlength⟩, hfields⟩ => ⟨⟨hoffset.symm, hlength.symm⟩, hfields.symm⟩,
    fun ⟨⟨hoffset, hlength⟩, hfields⟩ => ⟨⟨hoffset.symm, hlength.symm⟩, hfields.symm⟩⟩

theorem zip_same_comm (as bs : List EntityDict) :
    ((as.zip bs).all fun p => p.1.same p.2) = (bs.zip as).all fun p => p.1.same p.2 := by
  induction as generalizing bs with
  | nil => simp
  | cons a as ih =>
      cases bs with
      | nil => rfl
      | cons b bs =>
          simp only [List.zip_cons_cons, List.all_cons]
          rw [EntityDict.same_comm, ih]

theorem sameEntities_comm (a b : Option (List EntityDict)) :
    sameEntities a b = sameEntities b a := by
  cases a with
  | none => cases b <;> rfl
  | some as =>
      cases b with
      | none => rfl
      | some bs =>
          have hlength : decide (as.length = bs.length) = decide (bs.length = as.length) :=
            decide_eq_decide.2 eq_comm
          simp only [sameEntities, zip_same_comm as bs, hlength]

/-- `==` on values of the audit log. -/
def AuditValue.same : AuditValue → AuditValue → Bool
  | .setting a, .setting b => a.same b
  | .template a, .template b => a.same b
  | _, _ => false

/-- The values differ. -/
def AuditValue.Differ (a b : AuditValue) : Prop := a.same b = false

theorem TemplatePayload.same_comm (a b : TemplatePayload) : a.same b = b.same a := by
  have hbody : decide (a.body = b.body) = decide (b.body = a.body) := decide_eq_decide.2 eq_comm
  unfold TemplatePayload.same
  rw [sameEntities_comm, hbody]

/-- A payload that equals the default one is the default one. -/
theorem TemplatePayload.eq_of_same {a : TemplatePayload} {body : Str}
    (h : a.same ⟨body, none⟩ = true) :
    a = ⟨body, none⟩ := by
  obtain ⟨body', entities⟩ := a
  simp only [TemplatePayload.same, Bool.and_eq_true, decide_eq_true_eq] at h
  obtain ⟨rfl, hentities⟩ := h
  cases entities with
  | none => rfl
  | some entities => cases hentities

/-! ### What the parsers return -/

/-- A stored value that is not null, and equals the default only if it is the default. -/
def Json.Fits (default value : Json) : Prop :=
  value ≠ .null ∧ (value.same default = true → value = default)

theorem Json.fits_int (m n : ℤ) : Json.Fits (.int m) (.int n) :=
  ⟨fun h => (by cases h), fun h => of_decide_eq_true h⟩

theorem Json.fits_null_int (n : ℤ) : Json.Fits .null (.int n) :=
  ⟨fun h => (by cases h), fun h => by cases of_decide_eq_true h⟩

theorem Json.fits_null_str (text : Str) : Json.Fits .null (.str text) :=
  ⟨fun h => (by cases h), fun h => by cases of_decide_eq_true h⟩

theorem Json.fits_float {x : Rat} (hx : x.den ≠ 1) (y : Rat) : Json.Fits (.float x) (.float y) := by
  refine ⟨fun h => (by cases h), fun h => ?_⟩
  have heq : Json.comparable (.float y) = Json.comparable (.float x) := of_decide_eq_true h
  simp only [Json.comparable, if_neg hx] at heq
  split at heq
  · cases heq
  · exact heq

section Parsers

variable [UnicodeData] [PythonLibrary] {raw : Str} {value : Json}

omit [UnicodeData] [PythonLibrary] in
theorem invalid_ne_ok {message : String} : invalid message ≠ .ok value := fun h => by cases h

omit [PythonLibrary] in
theorem parseIntRange_ok {minimum maximum : ℤ} (h : parseIntRange minimum maximum raw = .ok value) :
    ∃ n, value = .int n := by
  unfold parseIntRange at h
  split at h
  · exact absurd h invalid_ne_ok
  · next n _ =>
      split at h
      · cases h
        exact ⟨n, rfl⟩
      · exact absurd h invalid_ne_ok

theorem parseFloatRange_ok {minimum maximum : Rat} {minimumText maximumText : String}
    (h : parseFloatRange minimum maximum minimumText maximumText raw = .ok value) :
    ∃ x, value = .float x := by
  unfold parseFloatRange at h
  split at h
  · exact absurd h invalid_ne_ok
  · split at h
    · next x _ =>
        cases h
        exact ⟨roundFour x, rfl⟩
    · exact absurd h invalid_ne_ok

omit [PythonLibrary] in
theorem parseNonzeroInt_ok (h : parseNonzeroInt raw = .ok value) : ∃ n, value = .int n := by
  unfold parseNonzeroInt at h
  cases hparsed : parseNonzero raw with
  | error error =>
      rw [hparsed] at h
      cases h
  | ok n =>
      rw [hparsed] at h
      cases h
      exact ⟨n, rfl⟩

omit [PythonLibrary] in
theorem parseArchiveChannelId_ok (h : parseArchiveChannelId raw = .ok value) :
    ∃ n, value = .int n := by
  unfold parseArchiveChannelId at h
  split at h
  · cases h
  · next n _ =>
      split at h
      · exact absurd h invalid_ne_ok
      · cases h
        exact ⟨n, rfl⟩

theorem parseHttpsUrl_ok (h : parseHttpsUrl raw = .ok value) : ∃ text, value = .str text := by
  unfold parseHttpsUrl at h
  dsimp only at h
  split at h
  · cases h
  · split at h
    · exact absurd h invalid_ne_ok
    · split at h
      · exact absurd h invalid_ne_ok
      · split at h
        · exact absurd h invalid_ne_ok
        · cases h
          exact ⟨_, rfl⟩

omit [PythonLibrary] in
theorem parseBlockId_ok (h : parseBlockId raw = .ok value) : ∃ text, value = .str text := by
  unfold parseBlockId at h
  split at h
  · cases h
    exact ⟨_, rfl⟩
  · exact absurd h invalid_ne_ok

omit [PythonLibrary] in
theorem parseDurationRange_ok {minimum maximum : ℤ}
    (h : parseDurationRange minimum maximum raw = .ok value) : ∃ n, value = .int n := by
  unfold parseDurationRange at h
  split at h
  · exact absurd h invalid_ne_ok
  · split at h
    · cases h
    · split at h
      · cases h
      · next n multiplier _ =>
          split at h
          · cases h
            exact ⟨_, rfl⟩
          · exact absurd h invalid_ne_ok

/-- Every parser returns values of the type of its default. -/
theorem fits_of_parse {definition : SettingDefinition} (hdefinition : definition ∈ settings)
    (h : definition.parse raw = .ok value) : definition.default.Fits value := by
  simp only [settings, List.mem_cons, List.not_mem_nil, or_false] at hdefinition
  rcases hdefinition with rfl | rfl | rfl | rfl | rfl | rfl | rfl | rfl | rfl | rfl
  · obtain ⟨n, rfl⟩ := parseDurationRange_ok h
    exact Json.fits_int _ _
  · obtain ⟨n, rfl⟩ := parseIntRange_ok h
    exact Json.fits_int _ _
  · obtain ⟨x, rfl⟩ := parseFloatRange_ok h
    exact Json.fits_float (by decide +kernel) _
  · obtain ⟨n, rfl⟩ := parseArchiveChannelId_ok h
    exact Json.fits_null_int _
  · obtain ⟨n, rfl⟩ := parseArchiveChannelId_ok h
    exact Json.fits_null_int _
  · obtain ⟨n, rfl⟩ := parseNonzeroInt_ok h
    exact Json.fits_null_int _
  · obtain ⟨text, rfl⟩ := parseHttpsUrl_ok h
    exact Json.fits_null_str _
  · obtain ⟨text, rfl⟩ := parseBlockId_ok h
    exact Json.fits_null_str _
  · obtain ⟨n, rfl⟩ := parseDurationRange_ok h
    exact Json.fits_int _ _
  · obtain ⟨n, rfl⟩ := parseDurationRange_ok h
    exact Json.fits_int _ _

end Parsers

/-! ### The log of a key -/

variable [UnicodeData] [PythonLibrary]

/-- The default of a key. -/
def defaultValue : EditKind → Str → Option AuditValue
  | .setting, key =>
      (getSettingDefinition key).toOption.map fun definition => .setting definition.default
  | .template, key =>
      (getTemplateDefinition key).toOption.map fun definition =>
        .template (templatePayload none definition)

/-- The effective value of a key. -/
def effectiveValue (t : AdminTables) : EditKind → Str → Option AuditValue
  | .setting, key => (getSettingEffective t key).toOption.map .setting
  | .template, key => (getTemplateEffective t key).toOption.map .template

namespace AdminTables

/-- The stored value of a key. -/
def stored (t : AdminTables) : EditKind → Str → Option AuditValue
  | .setting, key => (t.appSettings key).map .setting
  | .template, key => (t.messageTemplates key).map .template

/-- The audit entries of a key, in the order of the log. -/
def entries (t : AdminTables) (kind : EditKind) (key : Str) : List (AuditValue × AuditValue) :=
  (t.adminAuditLog.filter fun entry => entry.targetType = kind ∧ entry.targetKey = key).map
    fun entry =>
    (entry.oldValue, entry.newValue)

variable {t t' : AdminTables}

/-- **What a call can do to the configuration**: nothing, set a key to a value that differs from its
effective one, delete a row whose value differs from the default, or delete a row that equals it.
The changes are logged. -/
inductive ConfigStep (t t' : AdminTables) : Prop
  | quiet (hsettings : t'.appSettings = t.appSettings)
      (htemplates : t'.messageTemplates = t.messageTemplates)
      (haudit : t'.adminAuditLog = t.adminAuditLog)
  | setSetting (ownerUserId : ℤ) (definition : SettingDefinition) (raw : Str) (value : Json)
      (hdefinition : getSettingDefinition definition.key = .ok definition)
      (hparse : definition.parse raw = .ok value)
      (hdiffer : value.same ((t.appSettings definition.key).getD definition.default) = false)
      (hsettings : t'.appSettings = Function.update t.appSettings definition.key (some value))
      (htemplates : t'.messageTemplates = t.messageTemplates)
      (haudit : t'.adminAuditLog = t.adminAuditLog ++ [⟨ownerUserId, .set, .setting, definition.key,
        .setting ((t.appSettings definition.key).getD definition.default), .setting value⟩])
  | resetSetting (ownerUserId : ℤ) (definition : SettingDefinition) (value : Json)
      (hdefinition : getSettingDefinition definition.key = .ok definition)
      (hstored : t.appSettings definition.key = some value)
      (hsettings : t'.appSettings = Function.update t.appSettings definition.key none)
      (htemplates : t'.messageTemplates = t.messageTemplates)
      (haudit : t'.adminAuditLog = if value.same definition.default then t.adminAuditLog else
        t.adminAuditLog ++ [⟨ownerUserId, .reset, .setting, definition.key, .setting value,
          .setting definition.default⟩])
  | setTemplate (ownerUserId : ℤ) (definition : TemplateDefinition) (payload : TemplatePayload)
      (hdefinition : getTemplateDefinition definition.key = .ok definition)
      (hdiffer : payload.same (templatePayload (t.messageTemplates definition.key) definition) =
        false)
      (hsettings : t'.appSettings = t.appSettings)
      (htemplates : t'.messageTemplates =
        Function.update t.messageTemplates definition.key (some payload))
      (haudit : t'.adminAuditLog =
        t.adminAuditLog ++
          [⟨ownerUserId, .set, .template, definition.key,
            .template (templatePayload (t.messageTemplates definition.key) definition),
        .template payload⟩])
  | resetTemplate (ownerUserId : ℤ) (definition : TemplateDefinition) (payload : TemplatePayload)
      (hdefinition : getTemplateDefinition definition.key = .ok definition)
      (hstored : t.messageTemplates definition.key = some payload)
      (hsettings : t'.appSettings = t.appSettings)
      (htemplates : t'.messageTemplates = Function.update t.messageTemplates definition.key none)
      (haudit : t'.adminAuditLog =
        if payload.same (templatePayload none definition) then t.adminAuditLog else
          t.adminAuditLog ++ [⟨ownerUserId, .reset, .template, definition.key, .template payload,
            .template (templatePayload none definition)⟩])

theorem getSettingDefinition_mem {key : Str} {definition : SettingDefinition}
    (h : getSettingDefinition key = .ok definition) :
    definition ∈ settings ∧ definition.key = key := by
  unfold getSettingDefinition at h
  split at h
  · next found hfound =>
      cases h
      exact ⟨List.mem_of_find?_eq_some hfound, by simpa using List.find?_some hfound⟩
  · cases h

/-- A definition is found under its own key. -/
theorem getSettingDefinition_ok {key : Str} {definition : SettingDefinition}
    (h : getSettingDefinition key = .ok definition) :
    getSettingDefinition definition.key = .ok definition := by
  rw [(getSettingDefinition_mem h).2]
  exact h

omit [UnicodeData] [PythonLibrary] in
theorem getTemplateDefinition_ok {key : Str} {definition : TemplateDefinition}
    (h : getTemplateDefinition key = .ok definition) :
    getTemplateDefinition definition.key = .ok definition := by
  have hkey : definition.key = key := by
    unfold getTemplateDefinition at h
    split at h
    · next found hfound =>
        cases h
        simpa using List.find?_some hfound
    · cases h
  rw [hkey]
  exact h

/-- A call that requires an edit session finds one. -/
theorem requireEditSession_ok {ownerUserId : ℤ} {kind : EditKind} {edit : EditSession}
    (h : requireEditSession t ownerUserId kind = .ok edit) :
    (t.ownerEditSessions ownerUserId).isSome := by
  unfold requireEditSession at h
  cases hsession : t.ownerEditSessions ownerUserId with
  | none =>
      rw [hsession] at h
      cases h
  | some session => rfl

theorem applySettingEdit_ok {ownerUserId : ℤ} {raw : Str} {result : AdminResult}
    (h : applySettingEdit t ownerUserId raw = .ok (t', result)) :
    t.ConfigStep t' ∧ (t.ownerEditSessions ownerUserId).isSome ∧
      t'.ownerEditSessions = Function.update t.ownerEditSessions ownerUserId none := by
  unfold applySettingEdit at h
  split at h
  · cases h
  · next edit hedit =>
      have hopen := requireEditSession_ok hedit
      split at h
      · cases h
      · next definition hdefinition =>
          split at h
          · cases h
          · next value hparse =>
              dsimp only at h
              split at h
              · cases h
                exact ⟨.quiet rfl rfl rfl, hopen, rfl⟩
              · next hdiffer =>
                  split at h
                  · cases h
                  · next t₁ hset =>
                      cases h
                      unfold AdminTables.setSetting at hset
                      split at hset
                      · cases hset
                        exact ⟨.setSetting ownerUserId definition raw value
                          (getSettingDefinition_ok hdefinition) hparse (by simpa using hdiffer)
                          rfl rfl rfl, hopen, rfl⟩
                      · cases hset

theorem resetSetting_ok {ownerUserId : ℤ} {key : Str} {result : AdminResult}
    (h : CineGate.resetSetting t ownerUserId key = .ok (t', result)) :
    t.ConfigStep t' ∧ t'.ownerEditSessions = t.ownerEditSessions := by
  unfold CineGate.resetSetting at h
  split at h
  · cases h
  · next definition hdefinition =>
      split at h
      · cases h
        exact ⟨.quiet rfl rfl rfl, rfl⟩
      · next value hstored =>
          dsimp only at h
          split at h
          · next hsame =>
              cases h
              exact ⟨.resetSetting ownerUserId definition value
                (getSettingDefinition_ok hdefinition) hstored rfl rfl (if_pos hsame).symm, rfl⟩
          · next hsame =>
              cases h
              exact ⟨.resetSetting ownerUserId definition value
                (getSettingDefinition_ok hdefinition) hstored rfl rfl (if_neg hsame).symm, rfl⟩

theorem applyTemplateEdit_ok {ownerUserId : ℤ} {body : Str}
    {entities : Option (List EntityDict)} {result : AdminResult}
    (h : applyTemplateEdit t ownerUserId body entities = .ok (t', result)) :
    t.ConfigStep t' ∧ (t.ownerEditSessions ownerUserId).isSome ∧
      t'.ownerEditSessions = Function.update t.ownerEditSessions ownerUserId none := by
  unfold applyTemplateEdit at h
  split at h
  · cases h
  · next edit hedit =>
      have hopen := requireEditSession_ok hedit
      split at h
      · cases h
      · next definition hdefinition =>
          split at h
          · cases h
          · dsimp only at h
            split at h
            · cases h
              exact ⟨.quiet rfl rfl rfl, hopen, rfl⟩
            · next hdiffer =>
                split at h
                · cases h
                · next t₁ hset =>
                    cases h
                    unfold AdminTables.setTemplate at hset
                    split at hset
                    · cases hset
                      exact ⟨.setTemplate ownerUserId definition ⟨body, entities⟩
                        (getTemplateDefinition_ok hdefinition) (by simpa using hdiffer) rfl rfl rfl,
                        hopen, rfl⟩
                    · cases hset

theorem resetTemplate_ok {ownerUserId : ℤ} {key : Str} {result : AdminResult}
    (h : CineGate.resetTemplate t ownerUserId key = .ok (t', result)) :
    t.ConfigStep t' ∧ t'.ownerEditSessions = t.ownerEditSessions := by
  unfold CineGate.resetTemplate at h
  split at h
  · cases h
  · next definition hdefinition =>
      dsimp only at h
      split at h
      · cases h
        exact ⟨.quiet rfl rfl rfl, rfl⟩
      · next payload hstored =>
          split at h
          · next hsame =>
              cases h
              exact ⟨.resetTemplate ownerUserId definition payload
                (getTemplateDefinition_ok hdefinition) hstored rfl rfl (if_pos hsame).symm, rfl⟩
          · next hsame =>
              cases h
              exact ⟨.resetTemplate ownerUserId definition payload
                (getTemplateDefinition_ok hdefinition) hstored rfl rfl (if_neg hsame).symm, rfl⟩

theorem beginEdit_ok {ownerUserId : ℤ} {editKind targetKey : Str} {result : AdminResult}
    (h : CineGate.beginEdit t ownerUserId editKind targetKey = .ok (t', result)) :
    t.ConfigStep t' ∧ ∃ edit,
      t'.ownerEditSessions = Function.update t.ownerEditSessions ownerUserId (some edit) := by
  unfold CineGate.beginEdit at h
  split at h
  · cases h
  · split at h
    · cases h
    · cases h
      exact ⟨.quiet rfl rfl rfl, _, rfl⟩

theorem cancelEdit_ok {ownerUserId : ℤ} {result : AdminResult}
    (h : CineGate.cancelEdit t ownerUserId = .ok (t', result)) :
    t.ConfigStep t' ∧ (t'.ownerEditSessions = t.ownerEditSessions ∨
      t'.ownerEditSessions = Function.update t.ownerEditSessions ownerUserId none) := by
  unfold CineGate.cancelEdit at h
  split at h
  · cases h
    exact ⟨.quiet rfl rfl rfl, .inl rfl⟩
  · cases h
    exact ⟨.quiet rfl rfl rfl, .inr rfl⟩

theorem configStep (t : AdminTables) (call : AdminCall) : t.ConfigStep (t.step call) := by
  unfold step
  split
  · next t' result h =>
      cases call with
      | beginEdit ownerUserId editKind targetKey => exact (beginEdit_ok h).1
      | cancelEdit ownerUserId => exact (cancelEdit_ok h).1
      | applySettingEdit ownerUserId raw => exact (applySettingEdit_ok h).1
      | applyTemplateEdit ownerUserId body entities => exact (applyTemplateEdit_ok h).1
      | resetSetting ownerUserId key => exact (resetSetting_ok h).1
      | resetTemplate ownerUserId key => exact (resetTemplate_ok h).1
  · exact .quiet rfl rfl rfl

/-! ### The log replays -/

/-- The log of every key replays from its default to its effective value, and stored settings are
values that their parsers return. -/
structure Trail (t : AdminTables) : Prop where
  replays : ∀ kind key default, defaultValue kind key = some default →
    ChangeLog.Replays AuditValue.Differ default (t.entries kind key)
      ((t.stored kind key).getD default)
  fits : ∀ definition, getSettingDefinition definition.key = .ok definition →
    ∀ value, t.appSettings definition.key = some value → definition.default.Fits value

theorem trail_empty : AdminTables.empty.Trail := by
  refine ⟨fun kind key default _ => ?_, fun _ _ _ h => (by cases h)⟩
  have hstored : AdminTables.empty.stored kind key = none := by cases kind <;> rfl
  rw [hstored]
  exact .nil default

omit [UnicodeData] [PythonLibrary] in
theorem entries_of_append {entry : AuditEntry} (h : t'.adminAuditLog = t.adminAuditLog ++ [entry])
    (kind : EditKind) (key : Str) :
    t'.entries kind key = t.entries kind key ++
      if entry.targetType = kind ∧ entry.targetKey = key then [(entry.oldValue, entry.newValue)]
      else [] := by
  unfold entries
  rw [h, List.filter_append, List.map_append]
  by_cases hentry : entry.targetType = kind ∧ entry.targetKey = key
  · simp [hentry]
  · simp [hentry]

omit [UnicodeData] [PythonLibrary] in
theorem entries_of_eq (h : t'.adminAuditLog = t.adminAuditLog) (kind : EditKind) (key : Str) :
    t'.entries kind key = t.entries kind key := by
  unfold entries
  rw [h]

omit [UnicodeData] [PythonLibrary] in
theorem stored_setting {key : Str} {value : Option Json}
    (hsettings : t'.appSettings = Function.update t.appSettings key value)
    (htemplates : t'.messageTemplates = t.messageTemplates) (kind : EditKind) (key' : Str) :
    t'.stored kind key' =
      if EditKind.setting = kind ∧ key = key' then value.map .setting else t.stored kind key' := by
  cases kind with
  | setting =>
      by_cases hkey : key = key'
      · subst hkey
        simp [stored, hsettings]
      · simp [stored, hsettings, hkey, Function.update_of_ne (Ne.symm hkey)]
  | template => simp [stored, htemplates]

omit [UnicodeData] [PythonLibrary] in
theorem stored_template {key : Str} {value : Option TemplatePayload}
    (hsettings : t'.appSettings = t.appSettings)
    (htemplates : t'.messageTemplates = Function.update t.messageTemplates key value)
    (kind : EditKind) (key' : Str) :
    t'.stored kind key' =
      if EditKind.template = kind ∧ key = key' then value.map .template
      else t.stored kind key' := by
  cases kind with
  | template =>
      by_cases hkey : key = key'
      · subst hkey
        simp [stored, htemplates]
      · simp [stored, htemplates, hkey, Function.update_of_ne (Ne.symm hkey)]
  | setting => simp [stored, hsettings]

theorem defaultValue_setting {definition : SettingDefinition}
    (h : getSettingDefinition definition.key = .ok definition) :
    defaultValue .setting definition.key = some (.setting definition.default) := by
  simp only [defaultValue, h]
  rfl

omit [UnicodeData] [PythonLibrary] in
theorem defaultValue_template [UnicodeData] [PythonLibrary] {definition : TemplateDefinition}
    (h : getTemplateDefinition definition.key = .ok definition) :
    defaultValue .template definition.key = some (.template (templatePayload none definition)) := by
  simp only [defaultValue, h]
  rfl

omit [UnicodeData] [PythonLibrary] in
/-- The log of one key after a write: the write is logged, or it changes nothing that is
effective. -/
theorem replays_write {kind : EditKind} {key : Str} {default : AuditValue}
    {value : Option AuditValue}
    (ht : ChangeLog.Replays AuditValue.Differ default (t.entries kind key)
      ((t.stored kind key).getD default))
    (hstored : t'.stored kind key = value)
    (hentries : t'.entries kind key =
        t.entries kind key ++ [((t.stored kind key).getD default, value.getD default)] ∧
          ((t.stored kind key).getD default).Differ (value.getD default) ∨
      t'.entries kind key = t.entries kind key ∧
        (t.stored kind key).getD default = value.getD default) :
    ChangeLog.Replays AuditValue.Differ default (t'.entries kind key)
      ((t'.stored kind key).getD default) := by
  rw [hstored]
  rcases hentries with ⟨heq, hdiffer⟩ | ⟨heq, hsame⟩
  · rw [heq]
    exact ht.snoc hdiffer
  · rw [heq, ← hsame]
    exact ht

/-- A write to one target: the log of the target gets an entry or its effective value stays, and all
other targets keep log and value. -/
theorem Trail.write (ht : t.Trail) {target : EditKind} {targetKey : Str} {first : AuditValue}
    (value : Option AuditValue) (hfirst : defaultValue target targetKey = some first)
    (hstored : ∀ kind key, t'.stored kind key =
      if target = kind ∧ targetKey = key then value else t.stored kind key)
    (hentries : ∀ kind key,
      t'.entries kind key = t.entries kind key ++
          (if target = kind ∧ targetKey = key then
            [((t.stored target targetKey).getD first, value.getD first)] else []) ∧
          ((t.stored target targetKey).getD first).Differ (value.getD first) ∨
        t'.entries kind key = t.entries kind key ∧
          (t.stored target targetKey).getD first = value.getD first)
    (kind : EditKind) (key : Str) (default : AuditValue)
    (hdefault : defaultValue kind key = some default) :
    ChangeLog.Replays AuditValue.Differ default (t'.entries kind key)
      ((t'.stored kind key).getD default) := by
  have hreplays := ht.replays kind key default hdefault
  by_cases hhit : target = kind ∧ targetKey = key
  · obtain ⟨rfl, rfl⟩ := hhit
    cases hfirst.symm.trans hdefault
    refine replays_write hreplays (by rw [hstored, if_pos ⟨rfl, rfl⟩]) ?_
    have hhere := hentries target targetKey
    rwa [if_pos ⟨rfl, rfl⟩] at hhere
  · have hsame : t'.entries kind key = t.entries kind key := by
      rcases hentries kind key with ⟨heq, -⟩ | ⟨heq, -⟩
      · rw [heq, if_neg hhit, List.append_nil]
      · exact heq
    rw [hsame, hstored, if_neg hhit]
    exact hreplays

/-- The settings fit after one of them is written. -/
theorem Trail.fits_update (ht : t.Trail) {key : Str} {written : Option Json}
    (hsettings : t'.appSettings = Function.update t.appSettings key written)
    (hwritten : ∀ definition, getSettingDefinition key = .ok definition →
      ∀ value, written = some value → definition.default.Fits value) :
    ∀ definition, getSettingDefinition definition.key = .ok definition →
      ∀ value, t'.appSettings definition.key = some value → definition.default.Fits value := by
  intro definition hdefinition value hvalue
  rw [hsettings] at hvalue
  by_cases hkey : definition.key = key
  · rw [hkey, Function.update_self] at hvalue
    exact hwritten definition (hkey ▸ hdefinition) value hvalue
  · rw [Function.update_of_ne hkey] at hvalue
    exact ht.fits definition hdefinition value hvalue

theorem Trail.configStep (ht : t.Trail) (h : t.ConfigStep t') : t'.Trail := by
  cases h with
  | quiet hsettings htemplates haudit =>
      refine ⟨fun kind key default hdefault => ?_, fun definition hdefinition value hvalue => ?_⟩
      · have hstored : t'.stored kind key = t.stored kind key := by
          cases kind <;> simp [stored, hsettings, htemplates]
        rw [entries_of_eq haudit, hstored]
        exact ht.replays kind key default hdefault
      · rw [hsettings] at hvalue
        exact ht.fits definition hdefinition value hvalue
  | setSetting ownerUserId definition raw value hdefinition hparse hdiffer hsettings htemplates
      haudit =>
      have hold : (t.stored .setting definition.key).getD (.setting definition.default) =
          .setting ((t.appSettings definition.key).getD definition.default) := by
        simp only [stored]
        cases t.appSettings definition.key <;> rfl
      refine ⟨ht.write (some (.setting value)) (defaultValue_setting hdefinition)
        (stored_setting hsettings htemplates) fun kind key => .inl ⟨?_, ?_⟩, ?_⟩
      · rw [entries_of_append haudit, hold]
        rfl
      · rw [hold]
        exact (Json.same_comm _ _).trans hdiffer
      · refine ht.fits_update hsettings fun definition' hdefinition' value' hvalue' => ?_
        cases hdefinition.symm.trans hdefinition'
        cases hvalue'
        exact fits_of_parse (getSettingDefinition_mem hdefinition).1 hparse
  | resetSetting ownerUserId definition value hdefinition hstored hsettings htemplates haudit =>
      have hold : (t.stored .setting definition.key).getD (.setting definition.default) =
          .setting value := by
        simp only [stored, hstored]
        rfl
      refine ⟨ht.write none (defaultValue_setting hdefinition)
        (stored_setting hsettings htemplates) fun kind key => ?_, ?_⟩
      · -- a reset to a value that equals the default is not logged
        by_cases hsame : value.same definition.default = true
        · refine .inr ⟨?_, ?_⟩
          · rw [if_pos hsame] at haudit
            exact entries_of_eq haudit kind key
          · rw [hold, (ht.fits definition hdefinition value hstored).2 hsame]
            rfl
        · refine .inl ⟨?_, ?_⟩
          · rw [if_neg hsame] at haudit
            rw [entries_of_append haudit, hold]
            rfl
          · rw [hold]
            exact Bool.eq_false_iff.2 hsame
      · exact ht.fits_update hsettings fun _ _ _ hvalue => (by cases hvalue)
  | setTemplate ownerUserId definition payload hdefinition hdiffer hsettings htemplates haudit =>
      have hold : (t.stored .template definition.key).getD
          (.template (templatePayload none definition)) =
          .template (templatePayload (t.messageTemplates definition.key) definition) := by
        simp only [stored]
        cases t.messageTemplates definition.key <;> rfl
      refine ⟨ht.write (some (.template payload)) (defaultValue_template hdefinition)
        (stored_template hsettings htemplates) fun kind key => .inl ⟨?_, ?_⟩, ?_⟩
      · rw [entries_of_append haudit, hold]
        rfl
      · rw [hold]
        exact (TemplatePayload.same_comm _ _).trans hdiffer
      · rw [hsettings]
        exact ht.fits
  | resetTemplate ownerUserId definition payload hdefinition hstored hsettings htemplates haudit =>
      have hold : (t.stored .template definition.key).getD
          (.template (templatePayload none definition)) = .template payload := by
        simp only [stored, hstored]
        rfl
      refine ⟨ht.write none (defaultValue_template hdefinition)
        (stored_template hsettings htemplates) fun kind key => ?_, ?_⟩
      · -- a reset to a text that equals the default is not logged
        by_cases hsame : payload.same (templatePayload none definition) = true
        · refine .inr ⟨?_, ?_⟩
          · rw [if_pos hsame] at haudit
            exact entries_of_eq haudit kind key
          · rw [hold, TemplatePayload.eq_of_same hsame]
            rfl
        · refine .inl ⟨?_, ?_⟩
          · rw [if_neg hsame] at haudit
            rw [entries_of_append haudit, hold]
            rfl
          · rw [hold]
            exact Bool.eq_false_iff.2 hsame
      · rw [hsettings]
        exact ht.fits

theorem Trail.run (ht : t.Trail) (calls : List AdminCall) :
    (Transition.run AdminTables.step t calls).Trail :=
  Transition.run_invariant (I := Trail)
    (fun _ call ht => ht.configStep (AdminTables.configStep _ call))
    ht calls

/-- The effective value is the stored one or the default. -/
theorem Trail.effectiveValue (ht : t.Trail) {kind : EditKind} {key : Str} {default : AuditValue}
    (h : defaultValue kind key = some default) :
    effectiveValue t kind key = some ((t.stored kind key).getD default) := by
  cases kind with
  | setting =>
      cases hdefinition : getSettingDefinition key with
      | error error => simp [defaultValue, hdefinition, Except.toOption] at h
      | ok definition =>
          simp only [defaultValue, hdefinition, Except.toOption, Option.map_some] at h
          cases h
          have hkey := (getSettingDefinition_mem hdefinition).2
          simp only [CineGate.effectiveValue, getSettingEffective, hdefinition, stored]
          cases hvalue : t.appSettings key with
          | none => rfl
          | some value =>
              -- a stored value is not null
              have hfits := ht.fits definition (getSettingDefinition_ok hdefinition) value
                (by rw [hkey]; exact hvalue)
              cases value with
              | null => exact absurd rfl hfits.1
              | _ => rfl
  | template =>
      cases hdefinition : getTemplateDefinition key with
      | error error => simp [defaultValue, hdefinition, Except.toOption] at h
      | ok definition =>
          simp only [defaultValue, hdefinition, Except.toOption, Option.map_some] at h
          cases h
          simp only [CineGate.effectiveValue, getTemplateEffective, hdefinition, stored]
          cases t.messageTemplates key <;> rfl

end AdminTables

/-! ### Edit sessions -/

namespace AdminCall

/-- The call applies an edit of the owner. -/
def AppliesFor (ownerUserId : ℤ) : AdminCall → Prop
  | applySettingEdit owner _ | applyTemplateEdit owner _ _ => owner = ownerUserId
  | _ => False

/-- The call begins an edit of the owner. -/
def BeginsFor (ownerUserId : ℤ) : AdminCall → Prop
  | beginEdit owner _ _ => owner = ownerUserId
  | _ => False

instance (ownerUserId : ℤ) : DecidablePred (AppliesFor ownerUserId)
  | applySettingEdit owner _ | applyTemplateEdit owner _ _ =>
      inferInstanceAs (Decidable (owner = ownerUserId))
  | beginEdit .. | cancelEdit .. | resetSetting .. | resetTemplate .. => isFalse id

instance (ownerUserId : ℤ) : DecidablePred (BeginsFor ownerUserId)
  | beginEdit owner _ _ => inferInstanceAs (Decidable (owner = ownerUserId))
  | cancelEdit .. | applySettingEdit .. | applyTemplateEdit .. | resetSetting ..
  | resetTemplate .. =>
      isFalse id

end AdminCall

namespace AdminTables

variable {t t' : AdminTables}

/-- The number of calls of a run that satisfy a condition and succeed. -/
def successes (P : AdminCall → Prop) [DecidablePred P] : AdminTables → List AdminCall → ℕ
  | _, [] => 0
  | t, call :: calls =>
      (if P call ∧ (t.perform call).isOk = true then 1 else 0) + successes P (t.step call) calls

/-- The number of edits of an owner that can still be applied: one when a session is open. -/
def openSessions (t : AdminTables) (ownerUserId : ℤ) : ℕ :=
  if (t.ownerEditSessions ownerUserId).isSome then 1 else 0

omit [UnicodeData] [PythonLibrary] in
theorem openSessions_le (t : AdminTables) (ownerUserId : ℤ) : t.openSessions ownerUserId ≤ 1 := by
  unfold openSessions
  split <;> decide

omit [UnicodeData] [PythonLibrary] in
theorem openSessions_of_delete {owner : ℤ}
    (h : t'.ownerEditSessions = Function.update t.ownerEditSessions owner none) (ownerUserId : ℤ) :
    t'.openSessions ownerUserId ≤ t.openSessions ownerUserId ∧ t'.openSessions owner = 0 := by
  unfold openSessions
  rw [h, Function.update_self]
  refine ⟨?_, rfl⟩
  by_cases howner : ownerUserId = owner
  · rw [howner, Function.update_self]
    exact Nat.zero_le _
  · rw [Function.update_of_ne howner]

/-- A successful call applies an edit and closes its session, begins an edit, or opens no
session. -/
theorem openSessions_perform {call : AdminCall} {result : AdminResult} (ownerUserId : ℤ)
    (h : t.perform call = .ok (t', result)) :
    (call.AppliesFor ownerUserId → t.openSessions ownerUserId = 1 ∧
      t'.openSessions ownerUserId = 0) ∧
    (¬ call.BeginsFor ownerUserId → t'.openSessions ownerUserId ≤ t.openSessions ownerUserId) := by
  cases call with
  | beginEdit owner editKind targetKey =>
      obtain ⟨-, edit, hedit⟩ := beginEdit_ok h
      refine ⟨False.elim, fun hother => ?_⟩
      have howner : ownerUserId ≠ owner := fun heq => hother heq.symm
      unfold openSessions
      rw [hedit, Function.update_of_ne howner]
  | cancelEdit owner =>
      refine ⟨False.elim, fun _ => ?_⟩
      rcases (cancelEdit_ok h).2 with heq | heq
      · unfold openSessions
        rw [heq]
      · exact (openSessions_of_delete heq ownerUserId).1
  | applySettingEdit owner raw =>
      obtain ⟨-, hopen, hclosed⟩ := applySettingEdit_ok h
      refine ⟨?_, fun _ => (openSessions_of_delete hclosed ownerUserId).1⟩
      rintro rfl
      exact ⟨if_pos hopen, (openSessions_of_delete hclosed owner).2⟩
  | applyTemplateEdit owner body entities =>
      obtain ⟨-, hopen, hclosed⟩ := applyTemplateEdit_ok h
      refine ⟨?_, fun _ => (openSessions_of_delete hclosed ownerUserId).1⟩
      rintro rfl
      exact ⟨if_pos hopen, (openSessions_of_delete hclosed owner).2⟩
  | resetSetting owner key =>
      refine ⟨False.elim, fun _ => ?_⟩
      unfold openSessions
      rw [(resetSetting_ok h).2]
  | resetTemplate owner key =>
      refine ⟨False.elim, fun _ => ?_⟩
      unfold openSessions
      rw [(resetTemplate_ok h).2]

theorem step_of_error {call : AdminCall} {error : AdminError} (h : t.perform call = .error error) :
    t.step call = t := by
  unfold step
  rw [h]

/-- Every successful apply uses up a session that was open at first or has been begun. -/
theorem applies_le_begins (ownerUserId : ℤ) (t : AdminTables) (calls : List AdminCall) :
    successes (AdminCall.AppliesFor ownerUserId) t calls ≤
      successes (AdminCall.BeginsFor ownerUserId) t calls + t.openSessions ownerUserId := by
  induction calls generalizing t with
  | nil => exact Nat.zero_le _
  | cons call calls ih =>
      have hrest := ih (t.step call)
      simp only [successes]
      cases hperform : t.perform call with
      | error error =>
          rw [step_of_error hperform] at hrest ⊢
          simpa [Except.isOk, Except.toBool] using hrest
      | ok committed =>
          obtain ⟨t', result⟩ := committed
          have hstep : t.step call = t' := by
            unfold step
            rw [hperform]
          obtain ⟨happlies, hbegins⟩ := openSessions_perform ownerUserId hperform
          rw [hstep] at hrest ⊢
          have hok : (Except.ok (t', result) : AdminTransaction).isOk = true := rfl
          have hle := t'.openSessions_le ownerUserId
          by_cases happly : call.AppliesFor ownerUserId
          · obtain ⟨hbefore, hafter⟩ := happlies happly
            rw [if_pos ⟨happly, hok⟩]
            omega
          · rw [if_neg fun h => happly h.1]
            by_cases hbegin : call.BeginsFor ownerUserId
            · rw [if_pos ⟨hbegin, hok⟩]
              omega
            · have hkeeps := hbegins hbegin
              rw [if_neg fun h => hbegin h.1]
              omega

/-- **The audit log replays to the configuration.**  After every run of calls on new tables, the log
of every setting and template is a chain from its default to its effective value; in every part of
the run an owner has applied at most one edit more than the owner has begun in it, and none more
than begun from the start; and a call that raises changes nothing. -/
theorem audit_log_replays (calls : List AdminCall) :
    (∀ kind key default, defaultValue kind key = some default →
      ∃ effective,
        effectiveValue (Transition.run AdminTables.step .empty calls) kind key = some effective ∧
        ChangeLog.IsChain AuditValue.Differ default
          ((Transition.run AdminTables.step .empty calls).entries kind key) effective) ∧
    (∀ ownerUserId rest,
      successes (AdminCall.AppliesFor ownerUserId)
          (Transition.run AdminTables.step .empty calls) rest ≤
        successes (AdminCall.BeginsFor ownerUserId)
          (Transition.run AdminTables.step .empty calls) rest + 1) ∧
    (∀ ownerUserId, successes (AdminCall.AppliesFor ownerUserId) .empty calls ≤
      successes (AdminCall.BeginsFor ownerUserId) .empty calls) ∧
    (∀ call error, (Transition.run AdminTables.step .empty calls).perform call = .error error →
      (Transition.run AdminTables.step .empty calls).step call =
        Transition.run AdminTables.step .empty calls) := by
  have htrail := trail_empty.run calls
  refine ⟨fun kind key default hdefault => ?_, fun ownerUserId rest => ?_, fun ownerUserId => ?_,
    fun call error herror => ?_⟩
  · exact ⟨_, htrail.effectiveValue hdefault, (htrail.replays kind key default hdefault).isChain⟩
  · have hle := applies_le_begins ownerUserId (Transition.run AdminTables.step .empty calls) rest
    have hopen := (Transition.run AdminTables.step .empty calls).openSessions_le ownerUserId
    omega
  · exact applies_le_begins ownerUserId .empty calls
  · exact step_of_error herror

end AdminTables
end CineGate
