/-
**The owner's settings, templates and edit sessions.**

`admin/service.py`.  Every operation is one transaction under the advisory lock of its owner: it
returns an error, and then nothing of it is committed, or the tables it commits and its result.

* `AdminTables` — `app_settings`, `message_templates`, `owner_edit_sessions` and `admin_audit_log`;
* `beginEdit`, `cancelEdit`, `applySettingEdit`, `applyTemplateEdit`, `resetSetting`,
  `resetTemplate`;
* `getSettingEffective`, `getTemplateEffective`;
* `AdminTables.step` — one call.

Time stamps, and the column `rich_message`, which is always null here, are left out.
-/

import CineGate.AdminRegistry
import Mathlib.Logic.Function.Basic

set_option relaxedAutoImplicit false
set_option autoImplicit false

namespace CineGate

/-! ### Equality of values -/

/-- A value with its number in one form, for `==` compares numbers by their value. -/
def Json.comparable : Json → Json
  | .bool value => .int (if value then 1 else 0)
  | .float value => if value.den = 1 then .int value.num else .float value
  | value => value

/-- `==` on values. -/
def Json.same (a b : Json) : Bool := a.comparable = b.comparable

/-- `==` on the dicts of two entities, whatever the order of their keys. -/
def EntityDict.same (a b : EntityDict) : Bool :=
  a.offset.map Json.comparable = b.offset.map Json.comparable &&
    a.length.map Json.comparable = b.length.map Json.comparable &&
    (a.fields.map fun field => (field.1, field.2.comparable)).isPerm
      (b.fields.map fun field => (field.1, field.2.comparable))

/-- `==` on lists of entities. -/
def sameEntities : Option (List EntityDict) → Option (List EntityDict) → Bool
  | none, none => true
  | some as, some bs => as.length = bs.length && (as.zip bs).all fun p => p.1.same p.2
  | _, _ => false

/-- The payload of a template: `{"body": …, "entities": …}`. -/
structure TemplatePayload where
  body : Str
  entities : Option (List EntityDict)
deriving DecidableEq, Repr

/-- `==` on payloads. -/
def TemplatePayload.same (a b : TemplatePayload) : Bool :=
  a.body = b.body && sameEntities a.entities b.entities

/-! ### Tables -/

inductive EditKind
  | setting
  | template
deriving DecidableEq, Repr

/-- A row of `owner_edit_sessions`. -/
structure EditSession where
  editKind : EditKind
  targetKey : Str
deriving DecidableEq, Repr

inductive AuditAction
  | set
  | reset
deriving DecidableEq, Repr

/-- A value of the audit log. -/
inductive AuditValue
  | setting (value : Json)
  | template (payload : TemplatePayload)
deriving DecidableEq, Repr

/-- A row of `admin_audit_log`. -/
structure AuditEntry where
  ownerUserId : ℤ
  action : AuditAction
  targetType : EditKind
  targetKey : Str
  oldValue : AuditValue
  newValue : AuditValue
deriving DecidableEq, Repr

structure AdminTables where
  appSettings : Str → Option Json
  messageTemplates : Str → Option TemplatePayload
  ownerEditSessions : ℤ → Option EditSession
  adminAuditLog : List AuditEntry

/-- The tables of a new installation. -/
def AdminTables.empty : AdminTables := ⟨fun _ => none, fun _ => none, fun _ => none, []⟩

/-- What an operation returns. -/
inductive AdminResult
  | editSession (ownerUserId : ℤ) (editKind : EditKind) (targetKey : Str)
  | cancelled (found : Bool)
  | mutation (changed : Bool) (targetKey : Str) (value : AuditValue)
deriving DecidableEq, Repr

abbrev AdminTransaction := Except AdminError (AdminTables × AdminResult)

/-- PostgreSQL refuses the null character. -/
def storableText (text : Str) : Bool := !text.contains '\x00'

/-- A value that a column of type `jsonb` can hold. -/
def Json.storable : Json → Bool
  | .str text | .compound text => storableText text
  | _ => true

/-- A payload that a row of `message_templates` can hold. -/
def TemplatePayload.storable (payload : TemplatePayload) : Bool :=
  storableText payload.body && (payload.entities.getD []).all fun entity =>
    entity.offset.all Json.storable && entity.length.all Json.storable &&
      entity.fields.all fun field => storableText field.1 && field.2.storable

namespace AdminTables

variable (t : AdminTables)

/-- `_append_audit`. -/
def appendAudit (entry : AuditEntry) : AdminTables :=
  { t with adminAuditLog := t.adminAuditLog ++ [entry] }

/-- `SettingsRepository.set`. -/
def setSetting (key : Str) (value : Json) : Except AdminError AdminTables :=
  if value.storable then
    .ok { t with appSettings := Function.update t.appSettings key (some value) }
  else .error .dataError

/-- `session.delete(row)` on `app_settings`. -/
def deleteSetting (key : Str) : AdminTables :=
  { t with appSettings := Function.update t.appSettings key none }

/-- `MessageTemplateRepository.set`. -/
def setTemplate (key : Str) (payload : TemplatePayload) : Except AdminError AdminTables :=
  if payload.storable then
    .ok { t with messageTemplates := Function.update t.messageTemplates key (some payload) }
  else .error .dataError

/-- `MessageTemplateRepository.delete`. -/
def deleteTemplate (key : Str) : AdminTables :=
  { t with messageTemplates := Function.update t.messageTemplates key none }

/-- `session.delete(edit)`. -/
def deleteEdit (ownerUserId : ℤ) : AdminTables :=
  { t with ownerEditSessions := Function.update t.ownerEditSessions ownerUserId none }

end AdminTables

variable [UnicodeData] [PythonLibrary]

/-! ### Edit sessions -/

/-- `_validate_edit_target`. -/
def validateEditTarget (editKind : EditKind) (targetKey : Str) : Except AdminError Unit :=
  match editKind with
  | .setting => (getSettingDefinition targetKey).map fun _ => ()
  | .template => (getTemplateDefinition targetKey).map fun _ => ()

/-- The kind that a text names. -/
def editKindOf (editKind : Str) : Except AdminError EditKind :=
  if editKind = "setting".toList then .ok .setting
  else if editKind = "template".toList then .ok .template
  else .error (.validation "نوع التعديل غير معروف.".toList)

/-- `begin_edit`. -/
def beginEdit (t : AdminTables) (ownerUserId : ℤ) (editKind targetKey : Str) : AdminTransaction :=
  match editKindOf editKind with
  | .error error => .error error
  | .ok kind =>
      match validateEditTarget kind targetKey with
      | .error error => .error error
      | .ok _ =>
          .ok ({ t with ownerEditSessions :=
              Function.update t.ownerEditSessions ownerUserId (some ⟨kind, targetKey⟩) },
            .editSession ownerUserId kind targetKey)

/-- `cancel_edit`. -/
def cancelEdit (t : AdminTables) (ownerUserId : ℤ) : AdminTransaction :=
  match t.ownerEditSessions ownerUserId with
  | none => .ok (t, .cancelled false)
  | some _ => .ok (t.deleteEdit ownerUserId, .cancelled true)

/-- `_require_edit_session`. -/
def requireEditSession (t : AdminTables) (ownerUserId : ℤ) (expectedKind : EditKind) :
    Except AdminError EditSession :=
  match t.ownerEditSessions ownerUserId with
  | none => .error (.validation "لا توجد جلسة تعديل نشطة.".toList)
  | some edit =>
      if edit.editKind ≠ expectedKind then
        .error (.validation "جلسة التعديل الحالية من نوع آخر.".toList)
      else (validateEditTarget edit.editKind edit.targetKey).map fun _ => edit

/-! ### Settings -/

/-- `get_setting_effective`. -/
def getSettingEffective (t : AdminTables) (key : Str) : Except AdminError Json :=
  (getSettingDefinition key).map fun definition =>
    match t.appSettings key with
    | none | some .null => definition.default
    | some value => value

/-- `apply_setting_edit`. -/
def applySettingEdit (t : AdminTables) (ownerUserId : ℤ) (rawValue : Str) : AdminTransaction :=
  match requireEditSession t ownerUserId .setting with
  | .error error => .error error
  | .ok edit =>
      match getSettingDefinition edit.targetKey with
      | .error error => .error error
      | .ok definition =>
          match definition.parse rawValue with
          | .error error => .error error
          | .ok parsed =>
              let oldValue := (t.appSettings definition.key).getD definition.default
              if parsed.same oldValue then
                .ok (t.deleteEdit ownerUserId,
                  .mutation false definition.key (.setting parsed))
              else
                match t.setSetting definition.key parsed with
                | .error error => .error error
                | .ok t =>
                    .ok ((t.appendAudit ⟨ownerUserId, .set, .setting, definition.key,
                        .setting oldValue, .setting parsed⟩).deleteEdit ownerUserId,
                      .mutation true definition.key (.setting parsed))

/-- `reset_setting`. -/
def resetSetting (t : AdminTables) (ownerUserId : ℤ) (key : Str) : AdminTransaction :=
  match getSettingDefinition key with
  | .error error => .error error
  | .ok definition =>
      match t.appSettings definition.key with
      | none => .ok (t, .mutation false definition.key (.setting definition.default))
      | some oldValue =>
          let t := t.deleteSetting definition.key
          if oldValue.same definition.default then
            .ok (t, .mutation false definition.key (.setting definition.default))
          else
            .ok (t.appendAudit ⟨ownerUserId, .reset, .setting, definition.key, .setting oldValue,
                .setting definition.default⟩,
              .mutation true definition.key (.setting definition.default))

/-! ### Templates -/

/-- `_template_payload`. -/
def templatePayload (stored : Option TemplatePayload) (definition : TemplateDefinition) :
    TemplatePayload :=
  stored.getD ⟨definition.defaultBody, none⟩

omit [UnicodeData] [PythonLibrary] in
/-- `get_template_effective`. -/
def getTemplateEffective (t : AdminTables) (key : Str) : Except AdminError TemplatePayload :=
  (getTemplateDefinition key).map fun definition =>
    (t.messageTemplates key).getD ⟨definition.defaultBody, none⟩

/-- `apply_template_edit`. -/
def applyTemplateEdit (t : AdminTables) (ownerUserId : ℤ) (body : Str)
    (entities : Option (List EntityDict)) : AdminTransaction :=
  match requireEditSession t ownerUserId .template with
  | .error error => .error error
  | .ok edit =>
      match getTemplateDefinition edit.targetKey with
      | .error error => .error error
      | .ok definition =>
          match validateTemplateSource body entities definition.allowedVariables
              definition.maxLength with
          | .error error => .error (.template error)
          | .ok _ =>
              let oldPayload := templatePayload (t.messageTemplates definition.key) definition
              let newPayload : TemplatePayload := ⟨body, entities⟩
              if newPayload.same oldPayload then
                .ok (t.deleteEdit ownerUserId,
                  .mutation false definition.key (.template newPayload))
              else
                match t.setTemplate definition.key newPayload with
                | .error error => .error error
                | .ok t =>
                    .ok ((t.appendAudit ⟨ownerUserId, .set, .template, definition.key,
                        .template oldPayload, .template newPayload⟩).deleteEdit ownerUserId,
                      .mutation true definition.key (.template newPayload))

omit [UnicodeData] [PythonLibrary] in
/-- `reset_template`. -/
def resetTemplate (t : AdminTables) (ownerUserId : ℤ) (key : Str) : AdminTransaction :=
  match getTemplateDefinition key with
  | .error error => .error error
  | .ok definition =>
      let defaultPayload := templatePayload none definition
      match t.messageTemplates definition.key with
      | none => .ok (t, .mutation false definition.key (.template defaultPayload))
      | some current =>
          let oldPayload := templatePayload (some current) definition
          let t := t.deleteTemplate definition.key
          if oldPayload.same defaultPayload then
            .ok (t, .mutation false definition.key (.template defaultPayload))
          else
            .ok (t.appendAudit
              ⟨ownerUserId, .reset, .template, definition.key, .template oldPayload,
                .template defaultPayload⟩,
              .mutation true definition.key (.template defaultPayload))

/-! ### Calls -/

inductive AdminCall
  | beginEdit (ownerUserId : ℤ) (editKind targetKey : Str)
  | cancelEdit (ownerUserId : ℤ)
  | applySettingEdit (ownerUserId : ℤ) (rawValue : Str)
  | applyTemplateEdit (ownerUserId : ℤ) (body : Str) (entities : Option (List EntityDict))
  | resetSetting (ownerUserId : ℤ) (key : Str)
  | resetTemplate (ownerUserId : ℤ) (key : Str)
deriving DecidableEq, Repr

namespace AdminTables

/-- The transaction of a call. -/
def perform (t : AdminTables) : AdminCall → AdminTransaction
  | .beginEdit ownerUserId editKind targetKey => CineGate.beginEdit t ownerUserId editKind targetKey
  | .cancelEdit ownerUserId => CineGate.cancelEdit t ownerUserId
  | .applySettingEdit ownerUserId rawValue => CineGate.applySettingEdit t ownerUserId rawValue
  | .applyTemplateEdit ownerUserId body entities =>
      CineGate.applyTemplateEdit t ownerUserId body entities
  | .resetSetting ownerUserId key => CineGate.resetSetting t ownerUserId key
  | .resetTemplate ownerUserId key => CineGate.resetTemplate t ownerUserId key

/-- The tables after a call: what it has committed, or what there was. -/
def step (t : AdminTables) (call : AdminCall) : AdminTables :=
  match t.perform call with
  | .ok (t', _) => t'
  | .error _ => t

end AdminTables
end CineGate
