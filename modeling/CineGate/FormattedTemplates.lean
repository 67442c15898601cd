/-
**Templates and their formatting.**

What is known about cuts of the units of a body is carried over to the entities of a template.

* `render_commutes_with_formatting` — a rendered entity covers the rendering of what it covered, and
  entities keep their order, their nesting and their distance; a template is refused for a split
  variable exactly when it has one;
* `rendered_entities_valid_iff` — the rendered entities are valid exactly when each of them covers
  something that does not vanish;
* `accepted_template_renders` — what `validate_template_source` accepts renders, and what renders is
  accepted.
-/

import CineGate.TemplateRendering

set_option relaxedAutoImplicit false
set_option autoImplicit false

namespace CineGate

variable {body : Str} {replacements : Str → Str}

/-! ### Slices between cuts -/

/-- The UTF-16 slice of a text. -/
def unitSlice (text : Str) (start stop : ℕ) : List ℕ := ((Utf16.units text).take stop).drop start

variable (replacements) in
/-- The image of a cut does not come before the image of an earlier one. -/
theorem newOffset_mono {i j : ℕ} (hij : i ≤ j) (hj : j ≤ utf16Len body)
    (hi : ¬ unitMatcher.Splits (Utf16.units body) i)
    (hcut : ¬ unitMatcher.Splits (Utf16.units body) j) :
    newOffset replacements body i ≤ newOffset replacements body j :=
  TokenMatcher.position_mono hij hj hi hcut

variable (replacements) in
theorem newOffset_le {k : ℕ} (hk : k ≤ utf16Len body)
    (hcut : ¬ unitMatcher.Splits (Utf16.units body) k) :
    newOffset replacements body k ≤ utf16Len (renderText replacements body) := by
  unfold utf16Len
  rw [units_renderText]
  exact TokenMatcher.position_le hk hcut

/-- The slice of the rendered text between the images of two cuts. -/
theorem unitSlice_renderText {start stop : ℕ} (hle : start ≤ stop) (hstop : stop ≤ utf16Len body)
    (hstart : ¬ unitMatcher.Splits (Utf16.units body) start)
    (hcut : ¬ unitMatcher.Splits (Utf16.units body) stop) :
    unitSlice (renderText replacements body) (newOffset replacements body start)
        (newOffset replacements body stop) =
      renderUnits replacements (unitSlice body start stop) := by
  unfold unitSlice
  rw [units_renderText]
  exact TokenMatcher.render_slice hle hstop hstart hcut

/-- A slice is rendered to something exactly when it covers something that stays. -/
theorem renderUnits_ne_nil {text : List ℕ} : renderUnits replacements text ≠ [] ↔
    ∃ seg ∈ unitMatcher.segments text, ∀ word, seg = .token word →
      replacements (word.map Char.ofNat) ≠ [] := by
  unfold renderUnits
  rw [ne_eq, TokenMatcher.render_eq_nil_iff]
  unfold unitReplacement
  constructor
  · intro h
    by_contra hnone
    refine h fun seg hseg => ?_
    have hempty : ∃ word, seg = .token word ∧ replacements (word.map Char.ofNat) = [] := by
      by_contra hstays
      exact hnone ⟨seg, hseg, fun word hword hnil => hstays ⟨word, hword, hnil⟩⟩
    obtain ⟨word, hword, hnil⟩ := hempty
    exact ⟨word, hword, Utf16.units_eq_nil.2 hnil⟩
  · rintro ⟨seg, hseg, hstays⟩ h
    obtain ⟨word, hword, hnil⟩ := h seg hseg
    exact hstays word hword (Utf16.units_eq_nil.1 hnil)

/-! ### The entities of a rendered template -/

section Formatting

variable [UnicodeData]

/-- The two ends of an entity that fits are cuts of the body. -/
theorem EntityDict.FitsBody.cuts {entity : EntityDict} {start stop : ℕ} (h : entity.FitsBody body)
    (hrange : entity.range? (utf16Len body) = some (start, stop)) :
    ¬ unitMatcher.Splits (Utf16.units body) start ∧
      ¬ unitMatcher.Splits (Utf16.units body) stop := by
  rw [← splitsVariable_iff, ← splitsVariable_iff]
  exact ⟨fun hsplit => h.cut ⟨start, stop, hrange, .inl hsplit⟩,
    fun hsplit => h.cut ⟨start, stop, hrange, .inr hsplit⟩⟩

variable [EntityModel] {storedEntities : Option (List EntityDict)} {entities : List EntityDict}
  {allowedVariables : List Str} {replacements? : Str → Option Str} {maxLength : ℤ}

variable (replacements) in
theorem rendered_offset {entity : EntityDict} {start stop : ℕ}
    (hrange : entity.range? (utf16Len body) = some (start, stop)) :
    (entity.rendered replacements body).offset = newOffset replacements body start := by
  unfold EntityDict.rendered EntityDict.remapped
  rw [hrange]
  rfl

variable (replacements) in
theorem rendered_end {entity : EntityDict} {start stop : ℕ}
    (hrange : entity.range? (utf16Len body) = some (start, stop)) :
    (entity.rendered replacements body).offset + (entity.rendered replacements body).length =
      newOffset replacements body stop := by
  unfold EntityDict.rendered EntityDict.remapped
  rw [hrange]
  exact add_sub_cancel _ _

/-- How the rendered entities relate to the stored ones. -/
structure CommutesWithFormatting (replacements : Str → Str) (body : Str)
    (entities : List EntityDict) (rendered : RenderedTemplate) : Prop where
  text : rendered.text = renderText replacements body
  count : rendered.entities.length = entities.length
  slice : ∀ (i : ℕ) (entity : EntityDict) (out : MessageEntity) (start stop : ℕ),
    entities[i]? = some entity → rendered.entities[i]? = some out →
    entity.range? (utf16Len body) = some (start, stop) →
      0 ≤ out.offset ∧ 0 ≤ out.length ∧
        unitSlice rendered.text out.offset.toNat (out.offset + out.length).toNat =
          renderUnits replacements (unitSlice body start stop)
  pairs : ∀ (i j : ℕ) (entity entity' : EntityDict) (out out' : MessageEntity)
      (start stop start' stop' : ℕ),
    entities[i]? = some entity → rendered.entities[i]? = some out →
    entity.range? (utf16Len body) = some (start, stop) →
    entities[j]? = some entity' → rendered.entities[j]? = some out' →
    entity'.range? (utf16Len body) = some (start', stop') →
      (start ≤ start' ∧ stop' ≤ stop →
        out.offset ≤ out'.offset ∧ out'.offset + out'.length ≤ out.offset + out.length) ∧
      (start ≤ start' → out.offset ≤ out'.offset) ∧
      (stop ≤ start' → out.offset + out.length ≤ out'.offset)

theorem getElem?_rendered {i : ℕ} {entity : EntityDict} {out : MessageEntity}
    (hentity : entities[i]? = some entity)
    (hout : (entities.map (EntityDict.rendered replacements body))[i]? = some out) :
    entity ∈ entities ∧ out = entity.rendered replacements body := by
  rw [List.getElem?_map, hentity] at hout
  exact ⟨List.mem_of_getElem? hentity, (Option.some.inj hout).symm⟩

theorem commutesWithFormatting (h : ∀ entity ∈ entities, entity.FitsBody body) :
    CommutesWithFormatting replacements body entities
      ⟨renderText replacements body, entities.map (EntityDict.rendered replacements body)⟩ := by
  refine ⟨rfl, List.length_map _, ?_, ?_⟩
  · intro i entity out start stop hentity hout hrange
    obtain ⟨hmem, rfl⟩ := getElem?_rendered hentity hout
    obtain ⟨hlt, hle⟩ := range?_bounds hrange
    obtain ⟨hstart, hstop⟩ := (h entity hmem).cuts hrange
    have hmono := newOffset_mono replacements hlt.le hle hstart hstop
    have hoffset := rendered_offset replacements hrange
    have hend := rendered_end replacements hrange
    refine ⟨by omega, by omega, ?_⟩
    rw [hend, hoffset]
    exact unitSlice_renderText hlt.le hle hstart hstop
  · intro i j entity entity' out out' start stop start' stop' hi hout hrange hj hout' hrange'
    obtain ⟨hmem, rfl⟩ := getElem?_rendered hi hout
    obtain ⟨hmem', rfl⟩ := getElem?_rendered hj hout'
    obtain ⟨hlt, hle⟩ := range?_bounds hrange
    obtain ⟨hlt', hle'⟩ := range?_bounds hrange'
    obtain ⟨hstart, hstop⟩ := (h entity hmem).cuts hrange
    obtain ⟨hstart', hstop'⟩ := (h entity' hmem').cuts hrange'
    rw [rendered_end _ hrange, rendered_end _ hrange', rendered_offset _ hrange,
      rendered_offset _ hrange']
    have horder : start ≤ start' → newOffset replacements body start ≤
        newOffset replacements body start' :=
      fun hss => newOffset_mono _ hss (hlt'.le.trans hle') hstart hstart'
    refine ⟨fun ⟨hss, htt⟩ => ⟨Int.ofNat_le.2 (horder hss), Int.ofNat_le.2 ?_⟩,
      fun hss => Int.ofNat_le.2 (horder hss), fun hts => Int.ofNat_le.2 ?_⟩
    · exact newOffset_mono _ htt hle hstop' hstop
    · exact newOffset_mono _ hts (hlt'.le.trans hle') hstop hstart'

/-- A template with a split variable, and otherwise in order, is refused for it. -/
theorem renderTemplate_splits (hbody : body ≠ []) (hmax : 0 < maxLength)
    (hallowed : ∀ name ∈ variableNames body, name ∈ allowedVariables)
    (hreplaced : ∀ name ∈ variableNames body, (replacements? name).isSome)
    (hlength : utf16Len (renderText (replacementOf replacements?) body) ≤ maxLength)
    (hrange : ∀ entity ∈ storedEntities.getD [], (entity.range? (utf16Len body)).isSome)
    (hsplits : ∃ entity ∈ storedEntities.getD [], entity.SplitsVariable body) :
    ∃ name, renderTemplate body storedEntities allowedVariables replacements? maxLength =
      .error (.template (.splits name)) := by
  obtain ⟨entity, hentity, start, stop, hsome, hsplit⟩ := hsplits
  obtain ⟨name, hname⟩ :=
    remapEntity_splits (replacementOf replacements?) hsome hsplit
  -- an entity in range is refused for a split variable only
  have hkind : ∀ other ∈ storedEntities.getD [], ∀ e,
      remapEntity (utf16Len body)
        ((unitMatcher.tokens (Utf16.units body)).map (unitSpan (replacementOf replacements?)))
        other = .error e → ∃ name, e = .splits name := by
    intro other hother e he
    obtain ⟨⟨start', stop'⟩, hsome'⟩ := Option.isSome_iff_exists.1 (hrange other hother)
    by_cases hother' : SplitsVariable body start' ∨ SplitsVariable body stop'
    · obtain ⟨name', hname'⟩ :=
        remapEntity_splits (replacementOf replacements?) hsome' hother'
      rw [hname'] at he
      cases he
      exact ⟨name', rfl⟩
    · obtain ⟨hstart, hstop⟩ := not_or.1 hother'
      rw [remapEntity_eq hsome' hstart hstop] at he
      cases he
  obtain ⟨_, herror, name, rfl⟩ := mapM_error hkind ⟨entity, hentity, _, hname⟩
  refine ⟨name, ?_⟩
  rw [renderTemplate_of_variables hbody hmax hallowed hreplaced hlength]
  unfold remapEntities
  rw [herror]

/-- **Rendering commutes with formatting.**  Entities in range whose ends lie in no variable cover,
after rendering, the rendering of what they covered, and keep nesting, order and disjointness; with
an end inside a variable, and only then, the template is refused as split. -/
theorem render_commutes_with_formatting (body : Str) (storedEntities : Option (List EntityDict))
    (allowedVariables : List Str) (replacements? : Str → Option Str) (maxLength : ℤ)
    (hbody : body ≠ []) (hmax : 0 < maxLength)
    (hallowed : ∀ name ∈ variableNames body, name ∈ allowedVariables)
    (hreplacements : ∀ name ∈ allowedVariables, (replacements? name).isSome)
    (hlength : utf16Len (renderText (replacementOf replacements?) body) ≤ maxLength)
    (hrange : ∀ entity ∈ storedEntities.getD [], (entity.range? (utf16Len body)).isSome)
    (hfields : ValidFields storedEntities) :
    ((∀ entity ∈ storedEntities.getD [], ¬ entity.SplitsVariable body) →
      ∃ rendered,
        renderTemplate body storedEntities allowedVariables replacements? maxLength = .ok rendered ∧
        CommutesWithFormatting (replacementOf replacements?) body (storedEntities.getD [])
          rendered) ∧
    ((∃ name, renderTemplate body storedEntities allowedVariables replacements? maxLength =
        .error (.template (.splits name))) ↔
      ∃ entity ∈ storedEntities.getD [], entity.SplitsVariable body) := by
  have hreplaced : ∀ name ∈ variableNames body, (replacements? name).isSome :=
    fun name hname => hreplacements name (hallowed name hname)
  have hrenders : (∀ entity ∈ storedEntities.getD [], ¬ entity.SplitsVariable body) →
      renderTemplate body storedEntities allowedVariables replacements? maxLength =
        .ok ⟨renderText (replacementOf replacements?) body,
          (storedEntities.getD []).map (EntityDict.rendered (replacementOf replacements?) body)⟩ :=
    fun hcut => renderTemplate_ok hmax ⟨hbody, hallowed, hreplaced, hlength,
      fun entity hentity => ⟨hrange entity hentity, hcut entity hentity⟩⟩ hfields
  refine ⟨fun hcut => ⟨_, hrenders hcut, commutesWithFormatting fun entity hentity =>
    ⟨hrange entity hentity, hcut entity hentity⟩⟩, fun ⟨name, herror⟩ => ?_, fun hsplits =>
      renderTemplate_splits hbody hmax hallowed hreplaced hlength hrange hsplits⟩
  by_contra hnone
  have hcut : ∀ entity ∈ storedEntities.getD [], ¬ entity.SplitsVariable body := by
    simpa using hnone
  cases (hrenders hcut).symm.trans herror

end Formatting

section Witness

attribute [local instance] UnicodeData.asciiArabic

/-- A model of entities that asks for a type. -/
@[reducible] def EntityModel.typed : EntityModel where
  validateFields fields :=
    match fields.lookup "type".toList with
    | some (.str type) => some [("type".toList, type)]
    | _ => none

attribute [local instance] EntityModel.typed

/-- An entity with a type. -/
def boldEntity (offset length : ℤ) : EntityDict where
  offset := some (.int offset)
  length := some (.int length)
  fields := [("type".toList, .str "bold".toList)]

/-- A film without a year. -/
def filmWithoutYear (name : Str) : Option Str :=
  if name = "%movie%".toList then some "Up 🎈".toList
  else if name = "%year%".toList then some []
  else none

theorem render_commutes_with_formatting_film :
    ((∀ entity ∈ [boldEntity 0 10, boldEntity 3 7], ¬ entity.SplitsVariable "🎬 %movie%".toList) →
      ∃ rendered,
        renderTemplate "🎬 %movie%".toList (some [boldEntity 0 10, boldEntity 3 7])
          ["%movie%".toList, "%year%".toList] filmWithoutYear 1024 = .ok rendered ∧
        CommutesWithFormatting (replacementOf filmWithoutYear) "🎬 %movie%".toList
          [boldEntity 0 10, boldEntity 3 7] rendered) ∧
    ((∃ name, renderTemplate "🎬 %movie%".toList (some [boldEntity 0 10, boldEntity 3 7])
        ["%movie%".toList, "%year%".toList] filmWithoutYear 1024 =
          .error (.template (.splits name))) ↔
      ∃ entity ∈ [boldEntity 0 10, boldEntity 3 7], entity.SplitsVariable "🎬 %movie%".toList) :=
  render_commutes_with_formatting "🎬 %movie%".toList (some [boldEntity 0 10, boldEntity 3 7])
    ["%movie%".toList, "%year%".toList] filmWithoutYear 1024 (by decide) (by decide)
    (by decide +kernel) (by decide +kernel) (by decide +kernel) (by decide +kernel)
    (by unfold ValidFields; decide +kernel)

end Witness

/-! ### Valid entities -/

section Validity

variable [UnicodeData] [EntityModel] {storedEntities : Option (List EntityDict)}
  {allowedVariables : List Str} {replacements? : Str → Option Str} {maxLength : ℤ}

/-- What `_remap_entities` demands of the range of an entity. -/
def MessageEntity.ValidIn (textLength : ℕ) (entity : MessageEntity) : Prop :=
  0 ≤ entity.offset ∧ 0 < entity.length ∧ entity.offset + entity.length ≤ textLength

instance (textLength : ℕ) (entity : MessageEntity) : Decidable (entity.ValidIn textLength) :=
  inferInstanceAs (Decidable (_ ∧ _))

/-- The entity covers something that stays: a unit outside the variables, or a variable whose
replacement is not empty. -/
def EntityDict.CoversText (replacements : Str → Str) (body : Str) (entity : EntityDict) : Prop :=
  ∃ start stop, entity.range? (utf16Len body) = some (start, stop) ∧
    ∃ seg ∈ unitMatcher.segments (unitSlice body start stop),
      ∀ word, seg = .token word → replacements (word.map Char.ofNat) ≠ []

theorem renderTemplate_eq_ok {rendered : RenderedTemplate} (h :
      renderTemplate body storedEntities allowedVariables replacements? maxLength = .ok rendered) :
    0 < maxLength ∧ TemplateFits body storedEntities allowedVariables replacements? maxLength ∧
      ValidFields storedEntities ∧
      rendered = ⟨renderText (replacementOf replacements?) body,
        (storedEntities.getD []).map (EntityDict.rendered (replacementOf replacements?) body)⟩ := by
  have hmax : 0 < maxLength := by
    by_contra hneg
    unfold renderTemplate at h
    rw [if_pos (not_lt.1 hneg)] at h
    split at h <;> cases h
  by_cases hfits : TemplateFits body storedEntities allowedVariables replacements? maxLength
  · by_cases hfields : ValidFields storedEntities
    · rw [renderTemplate_ok hmax hfits hfields] at h
      cases h
      exact ⟨hmax, hfits, hfields, rfl⟩
    · rw [renderTemplate_entityValidation hmax hfits hfields] at h
      cases h
  · obtain ⟨error, herror⟩ := renderTemplate_error hmax hfits
    rw [herror] at h
    cases h

variable (replacements) in
/-- The rendered entity is as long as the rendering of what it covers. -/
theorem rendered_length {entity : EntityDict} {start stop : ℕ} (h : entity.FitsBody body)
    (hrange : entity.range? (utf16Len body) = some (start, stop)) :
    (entity.rendered replacements body).length =
      (renderUnits replacements (unitSlice body start stop)).length := by
  obtain ⟨hlt, hle⟩ := range?_bounds hrange
  obtain ⟨hstart, hstop⟩ := h.cuts hrange
  have hoffset := rendered_offset replacements hrange
  have hend := rendered_end replacements hrange
  have hsplit := congrArg List.length (TokenMatcher.render_take
    (ρ := unitReplacement replacements) hlt.le hle hstart hstop)
  rw [List.length_append] at hsplit
  have hposition : newOffset replacements body stop = newOffset replacements body start +
      (renderUnits replacements (unitSlice body start stop)).length := hsplit
  omega

theorem rendered_valid_iff {entity : EntityDict} (h : entity.FitsBody body) :
    (entity.rendered replacements body).ValidIn (utf16Len (renderText replacements body)) ↔
      entity.CoversText replacements body := by
  obtain ⟨⟨start, stop⟩, hrange⟩ := Option.isSome_iff_exists.1 h.range
  obtain ⟨hlt, hle⟩ := range?_bounds hrange
  obtain ⟨hstart, hstop⟩ := h.cuts hrange
  have hoffset := rendered_offset replacements hrange
  have hend := rendered_end replacements hrange
  have hlength := rendered_length replacements h hrange
  have hlast := newOffset_le replacements hle hstop
  have hpositive : 0 < (entity.rendered replacements body).length ↔
      renderUnits replacements (unitSlice body start stop) ≠ [] := by
    rw [hlength, Int.natCast_pos]
    exact List.length_pos_iff
  rw [renderUnits_ne_nil] at hpositive
  constructor
  · rintro ⟨-, hpos, -⟩
    exact ⟨start, stop, hrange, hpositive.1 hpos⟩
  · rintro ⟨start', stop', hrange', hcovers⟩
    cases hrange.symm.trans hrange'
    exact ⟨by omega, hpositive.2 hcovers, by omega⟩

/-- **The rendered entities are valid exactly when each of them covers something that stays.** -/
theorem rendered_entities_valid_iff (body : Str) (storedEntities : Option (List EntityDict))
    (allowedVariables : List Str) (replacements? : Str → Option Str) (maxLength : ℤ)
    (rendered : RenderedTemplate)
    (h : renderTemplate body storedEntities allowedVariables replacements? maxLength =
      .ok rendered) :
    (∀ out ∈ rendered.entities, out.ValidIn (utf16Len rendered.text)) ↔
      ∀ entity ∈ storedEntities.getD [], entity.CoversText (replacementOf replacements?) body := by
  obtain ⟨-, hfits, -, rfl⟩ := renderTemplate_eq_ok h
  constructor
  · intro hvalid entity hentity
    exact (rendered_valid_iff (hfits.entities entity hentity)).1
      (hvalid _ (List.mem_map.2 ⟨entity, hentity, rfl⟩))
  · intro hcovers out hout
    obtain ⟨entity, hentity, rfl⟩ := List.mem_map.1 hout
    exact (rendered_valid_iff (hfits.entities entity hentity)).2 (hcovers entity hentity)

end Validity

section Witness

attribute [local instance] UnicodeData.asciiArabic EntityModel.typed

theorem rendered_entities_valid_iff_film :
    (∀ out ∈ (⟨"Up 🎈 ()".toList, [⟨0, 5, [("type".toList, "bold".toList)]⟩]⟩ :
        RenderedTemplate).entities,
      out.ValidIn (utf16Len "Up 🎈 ()".toList)) ↔
      ∀ entity ∈ [boldEntity 0 7],
        entity.CoversText (replacementOf filmWithoutYear) "%movie% (%year%)".toList :=
  rendered_entities_valid_iff "%movie% (%year%)".toList (some [boldEntity 0 7])
    ["%movie%".toList, "%year%".toList] filmWithoutYear 1024 _ (by decide +kernel)

/-- The year in bold type: the entity of a film without a year has length 0. -/
theorem bold_year_vanishes :
    renderTemplate "%movie% %year%".toList (some [boldEntity 8 6])
        ["%movie%".toList, "%year%".toList] filmWithoutYear 1024 =
      .ok ⟨"Up 🎈 ".toList, [⟨6, 0, [("type".toList, "bold".toList)]⟩]⟩ ∧
    ¬ (⟨6, 0, [("type".toList, "bold".toList)]⟩ : MessageEntity).ValidIn
      (utf16Len "Up 🎈 ".toList) := by
  decide +kernel

end Witness

/-! ### What the validator accepts -/

section Acceptance

variable [UnicodeData] [EntityModel] {storedEntities : Option (List EntityDict)}
  {allowedVariables : List Str} {replacements? : Str → Option Str} {maxLength : ℤ}

/-- What `validate_template_source` asks of its arguments. -/
structure SourceFits (body : Str) (storedEntities : Option (List EntityDict))
    (allowedVariables : List Str) (maxLength : ℤ) : Prop where
  nonempty : body ≠ []
  length : utf16Len body ≤ maxLength
  allowed : ∀ name ∈ variableNames body, name ∈ allowedVariables
  entities : ∀ entity ∈ storedEntities.getD [], entity.FitsBody body

omit [EntityModel] in
theorem validateTemplateSource_eq_ok :
    validateTemplateSource body storedEntities allowedVariables maxLength = .ok () ↔
      SourceFits body storedEntities allowedVariables maxLength := by
  unfold validateTemplateSource
  constructor
  · intro h
    split at h
    · cases h
    · next hbody =>
        split at h
        · cases h
        · next hlength =>
            dsimp only at h
            split at h
            · cases h
            · next hunknown =>
                refine ⟨by simpa using hbody, not_lt.1 hlength, by simpa using hunknown, ?_⟩
                by_contra hentities
                obtain ⟨error, herror⟩ := remapEntities_error id hentities
                rw [validatorSpans_eq, herror] at h
                cases h
  · rintro ⟨hbody, hlength, hallowed, hentities⟩
    rw [if_neg (by simpa using hbody), if_neg (not_lt.2 hlength)]
    dsimp only
    rw [if_neg (by simpa using hallowed), validatorSpans_eq, remapEntities_ok hentities]
    rfl

/-- **What is accepted renders, and what renders is accepted.**  An accepted template whose entities
have valid keys renders, with any replacements of the allowed variables, unless the rendered text is
too long; then the owner's template is shown and not the default.  And a template that renders with
some replacements, and whose source is not too long, is accepted. -/
theorem accepted_template_renders (body : Str) (storedEntities : Option (List EntityDict))
    (allowedVariables : List Str) (maxLength : ℤ) :
    (∀ replacements? : Str → Option Str,
      validateTemplateSource body storedEntities allowedVariables maxLength = .ok () →
      ValidFields storedEntities → (∀ name ∈ allowedVariables, (replacements? name).isSome) →
      utf16Len (renderText (replacementOf replacements?) body) ≤ maxLength →
        ∃ rendered,
          renderTemplate body storedEntities allowedVariables replacements? maxLength =
            .ok rendered ∧
          rendered.text = renderText (replacementOf replacements?) body ∧
          ∀ defaultBody, renderRecord (some ⟨body, storedEntities⟩) defaultBody allowedVariables
            replacements? maxLength = .ok rendered) ∧
    (∀ (replacements? : Str → Option Str) (rendered : RenderedTemplate),
      renderTemplate body storedEntities allowedVariables replacements? maxLength = .ok rendered →
      utf16Len body ≤ maxLength →
        validateTemplateSource body storedEntities allowedVariables maxLength = .ok ()) := by
  refine ⟨fun replacements? haccepted hfields hreplacements hlength => ?_,
    fun replacements? rendered hrendered hsource => ?_⟩
  · obtain ⟨hbody, hsource, hallowed, hentities⟩ := validateTemplateSource_eq_ok.1 haccepted
    -- a source that is not empty has a unit, so the limit is positive
    have hpos : 0 < utf16Len body := List.length_pos_iff.2 fun h => hbody (Utf16.units_eq_nil.1 h)
    have hmax : 0 < maxLength := by omega
    have hrenders := renderTemplate_ok hmax ⟨hbody, hallowed,
      fun name hname => hreplacements name (hallowed name hname), hlength, hentities⟩ hfields
    refine ⟨_, hrenders, rfl, fun defaultBody => ?_⟩
    unfold renderRecord
    dsimp only [Option.map_some, Option.getD_some, Option.bind_some]
    rw [hrenders]
  · obtain ⟨-, hfits, -, -⟩ := renderTemplate_eq_ok hrendered
    exact validateTemplateSource_eq_ok.2 ⟨hfits.nonempty, hsource, hfits.allowed, hfits.entities⟩

end Acceptance

section Witness

attribute [local instance] UnicodeData.asciiArabic EntityModel.typed

/-- An entity without a type is accepted and raises when the template is rendered. -/
theorem untyped_entity_raises :
    validateTemplateSource "hello".toList (some [⟨some (.int 0), some (.int 5), []⟩]) [] 4096 =
      .ok () ∧
    utf16Len (renderText (replacementOf fun _ => none) "hello".toList) ≤ 4096 ∧
    renderTemplate "hello".toList (some [⟨some (.int 0), some (.int 5), []⟩]) [] (fun _ => none)
      4096 = .error .entityValidation ∧
    renderRecord (some ⟨"hello".toList, some [⟨some (.int 0), some (.int 5), []⟩]⟩)
      "default".toList [] (fun _ => none) 4096 = .error .entityValidation := by
  decide +kernel

end Witness

end CineGate
