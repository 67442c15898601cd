/-
**The caption of a paid delivery.**

`_prepare` renders the owner's `delivery_caption` template for the film and falls back to the
default body when that raises a `TemplateRenderError`.  The fallback is not safe for every row: it
is measured in UTF-16 units, of which a title of 512 characters may have 1024, and a stored entity
that `MessageEntity.model_validate` refuses is not a `TemplateRenderError`.

* `renderCaption` — the caption of a delivery;
* `renderText_default` — the default caption is the four replacements and 90 units of text;
* `caption_never_blocks_iff` — exactly when a caption is rendered;
* `prepare_blocked` — what the delivery does when none is.
-/

import CineGate.AdminRegistry
import CineGate.FormattedTemplates

set_option relaxedAutoImplicit false
set_option autoImplicit false

namespace CineGate

/-- The `replacements` of `_prepare`, by the name of the variable. -/
def CaptionReplacements.lookup (replacements : CaptionReplacements) (name : Str) : Option Str :=
  if name = "%movie%".toList then some replacements.movie
  else if name = "%year%".toList then some replacements.year
  else if name = "%quality%".toList then some replacements.quality
  else if name = "%time%".toList then some replacements.time
  else none

namespace CaptionReplacements

variable (replacements : CaptionReplacements)

theorem lookup_movie : replacements.lookup "%movie%".toList = some replacements.movie := if_pos rfl

theorem lookup_year : replacements.lookup "%year%".toList = some replacements.year := by
  unfold lookup
  rw [if_neg (by decide), if_pos rfl]

theorem lookup_quality : replacements.lookup "%quality%".toList = some replacements.quality := by
  unfold lookup
  rw [if_neg (by decide), if_neg (by decide), if_pos rfl]

theorem lookup_time : replacements.lookup "%time%".toList = some replacements.time := by
  unfold lookup
  rw [if_neg (by decide), if_neg (by decide), if_neg (by decide), if_pos rfl]

end CaptionReplacements

/-- The `replacements` for the columns of a film and of a quality; the schema bounds their lengths,
but not what the texts and the year are. -/
def deliveryReplacements (displayTitle : Str) (year : Option ℤ) (quality : Str)
    (deleteSeconds : ℤ) :
    CaptionReplacements where
  movie := displayTitle
  year := (year.map fun year => (toString year).toList).getD []
  quality
  time := (toString deleteSeconds).toList ++ " ثانية".toList

/-! ### The default caption -/

/-- The text of the default caption between the resolution and the time. -/
def defaultCaptionMiddle : Str :=
  "\n\n".toList ++ "مهم جدا\n".toList ++
    "يرجى تحويل الفيديو الى رسائل المحفوظة او اي محادثة اخرى ".toList ++
    "لانه سوف يتم حذفه بعد ".toList

theorem segments_defaultCaption :
    variableMatcher.segments deliveryCaption.defaultBody =
      [.token "%movie%".toList, .literal ' ', .token "%year%".toList, .literal ' ',
        .token "%quality%".toList] ++ defaultCaptionMiddle.map .literal ++
        [.token "%time%".toList] := by
  decide +kernel

theorem renderText_default (replacements : Str → Str) :
    renderText replacements deliveryCaption.defaultBody =
      replacements "%movie%".toList ++ ' ' :: replacements "%year%".toList ++
        ' ' :: replacements "%quality%".toList ++ defaultCaptionMiddle ++
          replacements "%time%".toList := by
  unfold renderText TokenMatcher.render
  rw [segments_defaultCaption, List.flatMap_append, List.flatMap_append, List.flatMap_map]
  have hmiddle : defaultCaptionMiddle.flatMap (fun c => Segment.render replacements (.literal c)) =
      defaultCaptionMiddle := List.flatMap_singleton' _
  rw [hmiddle]
  simp [Segment.render]

/-- The default caption in units. -/
theorem utf16Len_default (replacements : CaptionReplacements) :
    utf16Len (renderText (replacementOf replacements.lookup) deliveryCaption.defaultBody) =
      utf16Len replacements.movie + utf16Len replacements.year + utf16Len replacements.quality +
        utf16Len replacements.time + 90 := by
  have hmiddle : (Utf16.units defaultCaptionMiddle).length = 88 := by decide +kernel
  have hspace : (Utf16.encode ' ').length = 1 := rfl
  rw [renderText_default]
  unfold utf16Len replacementOf
  rw [replacements.lookup_movie, replacements.lookup_year, replacements.lookup_quality,
    replacements.lookup_time]
  simp only [Option.getD_some, Utf16.units_append, Utf16.units_cons, List.length_append, hmiddle,
    hspace]
  omega

theorem maxLength_deliveryCaption : deliveryCaption.maxLength = 1024 := rfl

theorem allowedVariables_deliveryCaption : deliveryCaption.allowedVariables =
    ["%movie%".toList, "%year%".toList, "%quality%".toList, "%time%".toList] := rfl

attribute [local irreducible] deliveryCaption

section

variable [UnicodeData] [EntityModel] {stored : Option StoredTemplate}
  {replacements : CaptionReplacements}

/-- `render_with_session` for `delivery_caption`. -/
def renderCaption (stored : Option StoredTemplate) (replacements : CaptionReplacements) :
    Except RenderFailure RenderedTemplate :=
  renderRecord stored deliveryCaption.defaultBody deliveryCaption.allowedVariables
    replacements.lookup deliveryCaption.maxLength

/-- The renderer that `_prepare` is given. -/
def captionRenderer (stored : Option StoredTemplate) : CaptionRenderer := fun replacements =>
  (renderCaption stored replacements).toOption

/-! ### When the caption is rendered -/

/-- The stored template passes the checks of `render_template`. -/
def StoredCaptionFits (template : StoredTemplate) (replacements : CaptionReplacements) : Prop :=
  TemplateFits template.body template.entities deliveryCaption.allowedVariables replacements.lookup
    deliveryCaption.maxLength

/-- The four replacements leave room for the default caption. -/
def DefaultCaptionFits (replacements : CaptionReplacements) : Prop :=
  utf16Len replacements.movie + utf16Len replacements.year + utf16Len replacements.quality +
    utf16Len replacements.time ≤ 934

/-- Either the stored template passes and its entities have valid keys, or there is no template that
passes and the default caption is short enough. -/
def CaptionFits (stored : Option StoredTemplate) (replacements : CaptionReplacements) : Prop :=
  (∃ template, stored = some template ∧ StoredCaptionFits template replacements ∧
      ValidFields template.entities) ∨
    (∀ template, stored = some template → ¬ StoredCaptionFits template replacements) ∧
      DefaultCaptionFits replacements

omit [UnicodeData] [EntityModel] in
theorem defaultCaption_allowed : ∀ name ∈ variableNames deliveryCaption.defaultBody,
    name ∈ deliveryCaption.allowedVariables := by decide +kernel

omit [UnicodeData] [EntityModel] in
theorem defaultCaption_replaced : ∀ name ∈ variableNames deliveryCaption.defaultBody,
    (replacements.lookup name).isSome := by
  intro name hname
  have hcases := defaultCaption_allowed name hname
  rw [allowedVariables_deliveryCaption] at hcases
  simp only [List.mem_cons, List.not_mem_nil, or_false] at hcases
  rcases hcases with h | h | h | h
  · rw [h, replacements.lookup_movie]
    rfl
  · rw [h, replacements.lookup_year]
    rfl
  · rw [h, replacements.lookup_quality]
    rfl
  · rw [h, replacements.lookup_time]
    rfl

omit [EntityModel] in
theorem defaultCaption_fits_iff :
    TemplateFits deliveryCaption.defaultBody none deliveryCaption.allowedVariables
      replacements.lookup
        deliveryCaption.maxLength ↔ DefaultCaptionFits replacements := by
  have hlength := utf16Len_default replacements
  unfold DefaultCaptionFits
  constructor
  · intro h
    have hle := h.length
    rw [hlength, maxLength_deliveryCaption] at hle
    omega
  · intro h
    have hnonempty : deliveryCaption.defaultBody ≠ [] := by decide +kernel
    refine ⟨hnonempty, defaultCaption_allowed, defaultCaption_replaced, ?_,
      fun _ h => absurd h List.not_mem_nil⟩
    rw [hlength, maxLength_deliveryCaption]
    omega

theorem renderCaption_default (hmissing : ∀ template, stored = some template →
      ¬ StoredCaptionFits template replacements) :
    renderCaption stored replacements =
      renderTemplate deliveryCaption.defaultBody none deliveryCaption.allowedVariables
        replacements.lookup
        deliveryCaption.maxLength := by
  have hpos : 0 < deliveryCaption.maxLength := by decide +kernel
  cases stored with
  | none =>
      unfold renderCaption renderRecord
      rw [Option.map_none, Option.getD_none, Option.bind_none]
      dsimp only
      split
      · rfl
      · rfl
  | some template =>
      obtain ⟨error, herror⟩ := renderTemplate_error hpos (hmissing template rfl)
      unfold renderCaption renderRecord
      dsimp only [Option.map_some, Option.getD_some, Option.bind_some]
      rw [herror]

theorem renderCaption_stored {template : StoredTemplate}
    (hfits : StoredCaptionFits template replacements) :
    renderCaption (some template) replacements =
      renderTemplate template.body template.entities deliveryCaption.allowedVariables
        replacements.lookup deliveryCaption.maxLength := by
  have hpos : 0 < deliveryCaption.maxLength := by decide +kernel
  unfold renderCaption renderRecord
  dsimp only [Option.map_some, Option.getD_some, Option.bind_some]
  by_cases hfields : ValidFields template.entities
  · rw [renderTemplate_ok hpos hfits hfields]
  · rw [renderTemplate_entityValidation hpos hfits hfields]

theorem renderTemplate_isOk_iff {body : Str} {storedEntities : Option (List EntityDict)}
    {allowedVariables : List Str} {replacements? : Str → Option Str} {maxLength : ℤ}
    (hmax : 0 < maxLength) :
    (∃ rendered, renderTemplate body storedEntities allowedVariables replacements? maxLength =
        .ok rendered) ↔
      TemplateFits body storedEntities allowedVariables replacements? maxLength ∧
        ValidFields storedEntities := by
  constructor
  · rintro ⟨rendered, hrendered⟩
    obtain ⟨-, hfits, hfields, -⟩ := renderTemplate_eq_ok hrendered
    exact ⟨hfits, hfields⟩
  · rintro ⟨hfits, hfields⟩
    exact ⟨_, renderTemplate_ok hmax hfits hfields⟩

theorem renderCaption_isOk_iff :
    (∃ rendered, renderCaption stored replacements = .ok rendered) ↔
      CaptionFits stored replacements := by
  have hmax : 0 < deliveryCaption.maxLength := by decide +kernel
  by_cases hstored : ∃ template, stored = some template ∧ StoredCaptionFits template replacements
  · obtain ⟨template, rfl, hfits⟩ := hstored
    rw [renderCaption_stored hfits, renderTemplate_isOk_iff hmax]
    refine ⟨fun ⟨_, hfields⟩ => .inl ⟨template, rfl, hfits, hfields⟩, ?_⟩
    rintro (⟨_, heq, hfits', hfields⟩ | ⟨hnone, -⟩)
    · cases heq
      exact ⟨hfits', hfields⟩
    · exact absurd hfits (hnone template rfl)
  · have hmissing : ∀ template, stored = some template →
        ¬ StoredCaptionFits template replacements :=
      fun template heq hfits => hstored ⟨template, heq, hfits⟩
    rw [renderCaption_default hmissing, renderTemplate_isOk_iff hmax]
    refine ⟨fun ⟨hfits, _⟩ => .inr ⟨hmissing, defaultCaption_fits_iff.1 hfits⟩, ?_⟩
    rintro (⟨template, heq, hfits, -⟩ | ⟨-, hfits⟩)
    · exact absurd hfits (hmissing template heq)
    · exact ⟨defaultCaption_fits_iff.2 hfits, fun _ h => absurd h List.not_mem_nil⟩

/-- A caption that is rendered is short enough. -/
theorem length_renderCaption {rendered : RenderedTemplate}
    (h : renderCaption stored replacements = .ok rendered) :
    (utf16Len rendered.text : ℤ) ≤ deliveryCaption.maxLength := by
  have hlength : ∀ {body : Str} {storedEntities : Option (List EntityDict)},
      renderTemplate body storedEntities deliveryCaption.allowedVariables replacements.lookup
        deliveryCaption.maxLength = .ok rendered →
      (utf16Len rendered.text : ℤ) ≤ deliveryCaption.maxLength := by
    intro body storedEntities hrendered
    obtain ⟨-, hfits, -, rfl⟩ := renderTemplate_eq_ok hrendered
    exact hfits.length
  by_cases hstored : ∃ template, stored = some template ∧ StoredCaptionFits template replacements
  · obtain ⟨template, rfl, hfits⟩ := hstored
    rw [renderCaption_stored hfits] at h
    exact hlength h
  · rw [renderCaption_default fun template heq hfits => hstored ⟨template, heq, hfits⟩] at h
    exact hlength h

/-- Without a stored template that passes, a default caption that is too long raises. -/
theorem renderCaption_tooLong (hmissing : ∀ template, stored = some template →
      ¬ StoredCaptionFits template replacements) (h : ¬ DefaultCaptionFits replacements) :
    renderCaption stored replacements = .error (.template (.renderedTooLong 1024)) := by
  have hmax : 0 < deliveryCaption.maxLength := by decide +kernel
  have hnonempty : deliveryCaption.defaultBody ≠ [] := by decide +kernel
  have hlength := utf16Len_default replacements
  have hloop := replaceVariables_body deliveryCaption.defaultBody
    (replacementOf replacements.lookup)
  unfold DefaultCaptionFits at h
  rw [renderCaption_default hmissing, renderTemplate_of_body hnonempty hmax,
    if_neg (by simpa using defaultCaption_allowed),
    if_neg (by simpa [Option.isSome_iff_ne_none] using defaultCaption_replaced), hloop,
    maxLength_deliveryCaption]
  exact if_pos (by rw [hlength]; omega)

/-- A reward whose caption cannot be rendered stays undelivered: `_prepare` raises, and nothing of
it is committed. -/
theorem prepare_blocked {db : Db} {rewardSessionId : ℕ} {clock : Clock} {reward : RewardSession}
    {movie : Movie} {row : MovieQuality}
    (hreward : db.rewardSessions.find? rewardSessionId = some reward)
    (hstatus : reward.status = .rewarded) (hreason : db.archive.bindingReason reward = none)
    (hmovie : db.archive.movies.find? reward.movieId = some movie)
    (hrow : db.archive.qualities.find? reward.movieQualityId = some row)
    (hcaption : ¬ CaptionFits stored (captionReplacements movie row
      (boundedDeleteSeconds db.settings.movieDeleteSeconds))) :
    prepare db (captionRenderer stored) rewardSessionId clock = .error .templateRenderError := by
  have hnone : captionRenderer stored (captionReplacements movie row
      (boundedDeleteSeconds db.settings.movieDeleteSeconds)) = none := by
    unfold captionRenderer
    cases hrender : renderCaption stored (captionReplacements movie row
        (boundedDeleteSeconds db.settings.movieDeleteSeconds)) with
    | error failure => rfl
    | ok rendered =>
        refine absurd (renderCaption_isOk_iff.1 ⟨rendered, hrender⟩) hcaption
  unfold prepare
  simp only [hreward, hstatus, hreason, hmovie, hrow, hnone]
  rfl

/-- **When a paid delivery gets its caption.**  For every film and quality row and every value of
the setting, a caption of at most 1024 units is rendered exactly when the stored template passes its
checks and has valid entities, or when no stored template passes and the default caption fits. -/
theorem caption_never_blocks_iff (stored : Option StoredTemplate) (displayTitle : Str)
    (year : Option ℤ) (quality : Str) (setting : Option SettingValue) :
    (∃ rendered, renderCaption stored
        (deliveryReplacements displayTitle year quality (boundedDeleteSeconds setting)) =
          .ok rendered ∧
      (utf16Len rendered.text : ℤ) ≤ 1024) ↔
    CaptionFits stored
      (deliveryReplacements displayTitle year quality (boundedDeleteSeconds setting)) := by
  rw [← renderCaption_isOk_iff]
  refine ⟨fun ⟨rendered, hrendered, _⟩ => ⟨rendered, hrendered⟩, fun ⟨rendered, hrendered⟩ =>
    ⟨rendered, hrendered, ?_⟩⟩
  rw [← maxLength_deliveryCaption]
  exact length_renderCaption hrendered

end

section

attribute [local instance] UnicodeData.asciiArabic EntityModel.typed

/-- A film whose title has 512 characters outside the Basic Multilingual Plane has no caption,
although nothing is stored: the fallback raises. -/
theorem astral_title_has_no_caption :
    (List.replicate 512 '𠀀').length ≤ 512 ∧
      renderCaption none
        (deliveryReplacements (List.replicate 512 '𠀀') none "480p".toList
          (boundedDeleteSeconds none)) =
          .error (.template (.renderedTooLong 1024)) :=
  ⟨by decide +kernel, renderCaption_tooLong (fun _ h => by cases h) (by
    unfold DefaultCaptionFits
    decide +kernel)⟩

end

end CineGate
