/-
**The registry of owner settings and templates.**

`admin/registry.py` with the default texts of `presentation/messages.py` and
`presentation/delivery.py`.  A setting has a default and a parser for what the owner sends; a
template has a default body, the variables it may use and a limit.  The labels, hints, sections,
formatters and preview values, which only the menus read, are left out.

`float`, `round` and `urlsplit` are the class `PythonLibrary`.

* `SettingDefinition`, `settings`, `getSettingDefinition`;
* `TemplateDefinition`, `templates`, `getTemplateDefinition`.
-/

import CineGate.Templates

set_option relaxedAutoImplicit false
set_option autoImplicit false

namespace CineGate

/-- What an operation of the owner raises. -/
inductive AdminError
  | validation (message : Str)
  | template (error : TemplateRenderError)
  | valueError
  | keyError
  | dataError
deriving DecidableEq, Repr

/-- The parts of a split URL that are looked at. -/
structure SplitUrl where
  scheme : Str
  hostname : Option Str
  username : Option Str
  password : Option Str
  query : Str
  fragment : Str
deriving DecidableEq, Repr

/-- Functions of the standard library: `float`, where an infinity or a NaN is `some none`,
`round(x, 4)`, and `urlsplit`, which may raise a `ValueError`. -/
class PythonLibrary where
  parseFloat : Str → Option (Option Rat)
  roundFour : Rat → Rat
  urlsplit : Str → Option SplitUrl

export PythonLibrary (parseFloat roundFour urlsplit)

/-! ### Parsers -/

/-- `AdminValidationError`. -/
def invalid (message : String) : Except AdminError Json := .error (.validation message.toList)

variable [UnicodeData]

/-- `_parse_int_range`. -/
def parseIntRange (minimum maximum : ℤ) (value : Str) : Except AdminError Json :=
  match parseInt (strip value) with
  | none => invalid "أرسل رقمًا صحيحًا فقط."
  | some parsed =>
      if minimum ≤ parsed ∧ parsed ≤ maximum then .ok (.int parsed)
      else invalid s!"القيمة يجب أن تكون بين {minimum} و {maximum}."

/-- `_parse_float_range`; `minimumText` and `maximumText` are the bounds as `:g` prints them. -/
def parseFloatRange [PythonLibrary] (minimum maximum : Rat) (minimumText maximumText : String)
    (value : Str) : Except AdminError Json :=
  match parseFloat (strip value) with
  | none => invalid "أرسل رقمًا عشريًا صحيحًا."
  | some parsed =>
      match parsed.filter fun x => minimum ≤ x ∧ x ≤ maximum with
      | some x => .ok (.float (roundFour x))
      | none => invalid s!"القيمة يجب أن تكون بين {minimumText} و {maximumText}."

/-- `_parse_nonzero_int`, as an integer. -/
def parseNonzero (value : Str) : Except AdminError ℤ :=
  match parseInt (strip value) with
  | none => .error (.validation "أرسل معرّف Telegram رقميًا صحيحًا.".toList)
  | some parsed =>
      if parsed = 0 then .error (.validation "المعرّف لا يمكن أن يكون صفرًا.".toList)
      else .ok parsed

/-- `_parse_nonzero_int`. -/
def parseNonzeroInt (value : Str) : Except AdminError Json := (parseNonzero value).map Json.int

/-- `_parse_archive_channel_id`. -/
def parseArchiveChannelId (value : Str) : Except AdminError Json :=
  match parseNonzero value with
  | .error error => .error error
  | .ok parsed =>
      if 0 ≤ parsed then invalid "معرّف قناة Telegram يجب أن يكون رقمًا سالبًا."
      else .ok (.int parsed)

/-- `_parse_https_url`. -/
def parseHttpsUrl [PythonLibrary] (value : Str) : Except AdminError Json :=
  let raw := (strip value).rdropWhile (· = '/')
  match urlsplit raw with
  | none => .error .valueError
  | some parsed =>
      if parsed.scheme ≠ "https".toList ∨ (parsed.hostname.getD []).isEmpty then
        invalid "الرابط يجب أن يبدأ بـ https:// ويحتوي نطاقًا صالحًا."
      else if !(parsed.username.getD []).isEmpty || !(parsed.password.getD []).isEmpty then
        invalid "لا تضع بيانات دخول داخل الرابط."
      else if !parsed.query.isEmpty || !parsed.fragment.isEmpty then
        invalid "أرسل الرابط الأساسي بدون query أو #fragment."
      else .ok (.str raw)

/-- `_BLOCK_ID_RE`: `^[A-Za-z0-9_-]{1,128}$`. -/
def isBlockId (text : Str) : Bool :=
  (1 ≤ text.length && text.length ≤ 128) && text.all fun c => isAsciiAlnum c || c = '_' || c = '-'

/-- `_parse_block_id`. -/
def parseBlockId (value : Str) : Except AdminError Json :=
  if isBlockId (strip value) then .ok (.str (strip value))
  else invalid "Block ID يجب أن يحتوي أحرفًا/أرقامًا أو - و _ فقط."

/-- The units of `_DURATION_RE` with their `multipliers`. -/
def durationUnits : List (Str × ℕ) :=
  [("s".toList, 1), ("sec".toList, 1), ("secs".toList, 1), ("second".toList, 1),
    ("seconds".toList, 1), ("ث".toList, 1), ("ثانية".toList, 1), ("ثواني".toList, 1),
    ("m".toList, 60), ("min".toList, 60), ("mins".toList, 60), ("minute".toList, 60),
    ("minutes".toList, 60), ("د".toList, 60), ("دقيقة".toList, 60), ("دقائق".toList, 60),
    ("h".toList, 3600), ("hr".toList, 3600), ("hrs".toList, 3600), ("hour".toList, 3600),
    ("hours".toList, 3600), ("س".toList, 3600), ("ساعة".toList, 3600), ("ساعات".toList, 3600),
    ("d".toList, 86400), ("day".toList, 86400), ("days".toList, 86400), ("يوم".toList, 86400),
    ("أيام".toList, 86400)]

/-- A letter of a unit under `re.IGNORECASE`, which also lets `s` match the long s and `i` the
dotted and the dotless i. -/
def eqUnitLetter (pattern c : Char) : Bool :=
  c = pattern || c = pattern.toUpper || (pattern = 's' && c = '\u017f') ||
    (pattern = 'i' && (c = '\u0130' || c = '\u0131'))

/-- The text is one of the units of `_DURATION_RE`. -/
def isDurationUnit (text : Str) : Bool :=
  durationUnits.any fun unit =>
    unit.1.length = text.length && (unit.1.zip text).all fun p => eqUnitLetter p.1 p.2

/-- `_DURATION_RE.fullmatch`: the digits and the unit, if there is one. -/
def matchDuration (value : Str) : Option (Str × Option Str) :=
  let text := strip value
  let amount := text.takeWhile fun c => (decimal c).isSome
  let unit := (text.dropWhile fun c => (decimal c).isSome).dropWhile isSpace
  if amount.isEmpty then none
  else if unit.isEmpty then some (amount, none)
  else if isDurationUnit unit then some (amount, some unit)
  else none

/-- `_parse_duration_range`. -/
def parseDurationRange (minimum maximum : ℤ) (value : Str) : Except AdminError Json :=
  match matchDuration value with
  | none => invalid "اكتب المدة مثل: 120 أو 2m أو 2 دقيقة أو 1h."
  | some (amount, unit) =>
      match parseInt amount with
      | none => .error .valueError
      | some amount =>
          match durationUnits.lookup (casefold (unit.getD "s".toList)) with
          | none => .error .keyError
          | some multiplier =>
              if minimum ≤ amount * multiplier ∧ amount * multiplier ≤ maximum then
                .ok (.int (amount * multiplier))
              else invalid s!"المدة بعد التحويل يجب أن تكون بين {minimum} و {maximum} ثانية."

/-! ### Settings -/

/-- `SettingDefinition`. -/
structure SettingDefinition where
  key : Str
  default : Json
  parse : Str → Except AdminError Json

/-- `SETTINGS`. -/
def settings [PythonLibrary] : List SettingDefinition :=
  [⟨"movie_delete_seconds".toList, .int 120, parseDurationRange 5 172000⟩,
    ⟨"search_result_limit".toList, .int 6, parseIntRange 1 10⟩,
    ⟨"search_similarity_threshold".toList, .float (32 / 100),
      parseFloatRange (15 / 100) (95 / 100) "0.15" "0.95"⟩,
    ⟨"source_channel_id".toList, .null, parseArchiveChannelId⟩,
    ⟨"archive_channel_id".toList, .null, parseArchiveChannelId⟩,
    ⟨"owner_chat_id".toList, .null, parseNonzeroInt⟩,
    ⟨"public_base_url".toList, .null, parseHttpsUrl⟩,
    ⟨"adsgram_block_id".toList, .null, parseBlockId⟩,
    ⟨"reward_session_seconds".toList, .int 600, parseDurationRange 60 3600⟩,
    ⟨"miniapp_init_data_max_age_seconds".toList, .int 600, parseDurationRange 60 3600⟩]

/-- `get_setting_definition`. -/
def getSettingDefinition [PythonLibrary] (key : Str) : Except AdminError SettingDefinition :=
  match settings.find? fun definition => definition.key = key with
  | some definition => .ok definition
  | none => .error (.validation "إعداد غير معروف.".toList)

/-! ### Templates -/

/-- `SEARCH_RESULTS`. -/
def searchResultsText : Str :=
  "وجدنا %count% نتائج بحث ✅️\n\n".toList ++
    "من الأزرار التالية اختر الفيلم الذي تريده أو اكتب اسم فيلم آخر لإعادة البحث.".toList

/-- `NO_SEARCH_RESULTS`. -/
def noSearchResultsText : Str :=
  "عذرا لم أجد نتائج بحث ‼️\n\n".toList ++
    "هذا يعني اما الفيلم غير متوفر في ذاكرتي او ان نص البحث غير دقيق ، ".toList ++
    "حاول كتابة الاسم الصحيح و اذا مازالت تظهر هذه الرسالة ".toList ++
    "ف هذا يعني ان الفيلم غير متوفر.".toList

/-- `WELCOME`. -/
def welcomeText : Str := "🎬 أرسل اسم الفيلم الذي تبحث عنه باللغة الإنجليزية.".toList

/-- `MOVIE_UNAVAILABLE`. -/
def movieUnavailableText : Str := "تعذر فتح الفيلم حاليًا. حاول مرة أخرى أو أعد البحث.".toList

/-- `STALE_SEARCH`. -/
def staleSearchText : Str := "انتهت صلاحية هذه النتيجة. اكتب اسم الفيلم من جديد.".toList

/-- `REWARD_PROMPT`. -/
def rewardPromptText : Str :=
  "🎬 %movie%\n".toList ++ "🎞 الجودة: %quality%\n\n".toList ++
    "عليك مشاهدة إعلان قصير قبل استلام الجودة المطلوبة.".toList

/-- `REWARD_NOT_CONFIGURED`. -/
def rewardNotConfiguredText : Str := "خدمة الإعلان غير مجهزة حاليًا. حاول لاحقًا.".toList

/-- `ACTIVE_REWARD_CONFLICT`. -/
def activeRewardConflictText : Str :=
  "لديك طلب إعلان نشط لجودة %quality%. أكمله أولًا قبل اختيار جودة أخرى.".toList

/-- `DEFAULT_DELIVERY_CAPTION`. -/
def defaultDeliveryCaption : Str :=
  "%movie% %year% %quality%\n\n".toList ++ "مهم جدا\n".toList ++
    "يرجى تحويل الفيديو الى رسائل المحفوظة او اي محادثة اخرى ".toList ++
    "لانه سوف يتم حذفه بعد %time%".toList

/-- `TemplateDefinition`. -/
structure TemplateDefinition where
  key : Str
  defaultBody : Str
  allowedVariables : List Str
  maxLength : ℤ := 4096
deriving DecidableEq, Repr

/-- The definition of the caption of a delivery. -/
def deliveryCaption : TemplateDefinition :=
  ⟨"delivery_caption".toList, defaultDeliveryCaption,
    ["%movie%".toList, "%year%".toList, "%quality%".toList, "%time%".toList], 1024⟩

/-- `TEMPLATES`. -/
def templates : List TemplateDefinition :=
  [{ key := "welcome".toList, defaultBody := welcomeText, allowedVariables := [] },
    { key := "search_results".toList, defaultBody := searchResultsText,
      allowedVariables := ["%count%".toList] },
    { key := "search_no_results".toList, defaultBody := noSearchResultsText,
      allowedVariables := [] },
    { key := "reward_prompt".toList, defaultBody := rewardPromptText,
      allowedVariables := ["%movie%".toList, "%quality%".toList] },
    deliveryCaption,
    ⟨"movie_unavailable".toList, movieUnavailableText, [], 200⟩,
    ⟨"stale_search".toList, staleSearchText, [], 200⟩,
    ⟨"reward_not_configured".toList, rewardNotConfiguredText, [], 200⟩,
    ⟨"active_reward_conflict".toList, activeRewardConflictText, ["%quality%".toList], 200⟩]

/-- `get_template_definition`. -/
def getTemplateDefinition (key : Str) : Except AdminError TemplateDefinition :=
  match templates.find? fun definition => definition.key = key with
  | some definition => .ok definition
  | none => .error (.validation "قالب غير معروف.".toList)

end CineGate
