/-
**What the panel shows is what the program does.**

The services do not trust a stored setting.  Each reads its row itself, has a default of its own,
and brings a value that is out of its bounds back into them.  The panel shows the effective value of
the service of the owner, which knows nothing of these readers.  They agree: the bounds of a parser
are the bounds of the reader, and the defaults are the same.  For the ads the agreement has an
exception, a base URL whose scheme is not in small letters: it is accepted and shown, and the bot
says that no ads are set up.

* `AdminTables.systemSettings`, `searchSettings`, `initDataMaxAge`, … — the rows as the services
  read them;
* `Sourced.bounded`, `Sourced.identifier` — a stored value is within the bounds of its reader;
* `AdminTables.ReadAsShown` — every reader makes of its row what the panel shows;
* `AdminTables.settings_are_read_as_shown` — so it is after every run of calls.
-/

import CineGate.ShownSettings
import CineGate.MovieSearch
import CineGate.QualityTaps
import Mathlib.Tactic.Linarith

set_option relaxedAutoImplicit false
set_option autoImplicit false

namespace CineGate

/-! ### Rows -/

/-- A value of `app_settings` as the readers of integers see it; null is no value. -/
def Json.settingValue? : Json → Option SettingValue
  | .null => none
  | .int value => some (.int value)
  | .bool value => some (.bool value)
  | _ => some .other

/-- A value of `app_settings` as the readers of strings see it. -/
def Json.text? : Json → Option Str
  | .str text => some text
  | _ => none

namespace AdminTables

/-- The row of an integer. -/
def settingRow (t : AdminTables) (key : Str) : Option SettingValue :=
  (t.appSettings key).bind Json.settingValue?

theorem settingRow_of_none {t : AdminTables} {key : Str} (h : t.appSettings key = none) :
    t.settingRow key = none := by
  rw [settingRow, h]
  rfl

theorem settingRow_of_int {t : AdminTables} {key : Str} {n : ℤ}
    (h : t.appSettings key = some (.int n)) :
    t.settingRow key = some (.int n) := by
  rw [settingRow, h]
  rfl

/-- The rows that the archive, the rewards and the deliveries read. -/
def systemSettings (t : AdminTables) : Settings where
  archiveChannelId := t.settingRow "archive_channel_id".toList
  rewardSessionSeconds := t.settingRow "reward_session_seconds".toList
  movieDeleteSeconds := t.settingRow "movie_delete_seconds".toList

/-- The rows that the search reads. -/
def searchSettings (t : AdminTables) : SearchSettings where
  searchResultLimit := t.appSettings "search_result_limit".toList
  searchSimilarityThreshold := t.appSettings "search_similarity_threshold".toList

/-- The row that the mini app reads. -/
def initDataMaxAge (t : AdminTables) : Option SettingValue :=
  t.settingRow "miniapp_init_data_max_age_seconds".toList

/-- `_reward_config`. -/
def adsConfig [UnicodeData] (t : AdminTables) : Option (Str × Str) :=
  rewardConfig ((t.appSettings "public_base_url".toList).bind Json.text?)
    ((t.appSettings "adsgram_block_id".toList).bind Json.text?)

end AdminTables

/-! ### What a parser lets through -/

/-- `round(x, 4)` is a nearest number with four decimals. -/
def RoundsFour [PythonLibrary] : Prop :=
  ∀ x : ℚ, ∃ n : ℤ, roundFour x = n / 10000 ∧ |x - n / 10000| ≤ 1 / 20000

/-- Rounding stays within bounds that have four decimals themselves. -/
theorem roundFour_bounds [PythonLibrary] (hround : RoundsFour) {a b : ℤ} {x : ℚ}
    (ha : (a : ℚ) / 10000 ≤ x) (hb : x ≤ (b : ℚ) / 10000) :
    (a : ℚ) / 10000 ≤ roundFour x ∧ roundFour x ≤ (b : ℚ) / 10000 := by
  obtain ⟨n, hn, hnear⟩ := hround x
  obtain ⟨hlow, hhigh⟩ := abs_le.1 hnear
  have han : a ≤ n := by
    by_contra hlt
    have hle : (n : ℚ) + 1 ≤ a := by exact_mod_cast not_le.1 hlt
    linarith
  have hnb : n ≤ b := by
    by_contra hlt
    have hle : (b : ℚ) + 1 ≤ n := by exact_mod_cast not_le.1 hlt
    linarith
  have han' : (a : ℚ) ≤ n := by exact_mod_cast han
  have hnb' : (n : ℚ) ≤ b := by exact_mod_cast hnb
  rw [hn]
  constructor <;> linarith

theorem parseFloatRange_range [UnicodeData] [PythonLibrary] (hround : RoundsFour) {a b : ℤ}
    {minimumText maximumText : String} {raw : Str} {value : Json}
    (h : parseFloatRange ((a : ℚ) / 10000) ((b : ℚ) / 10000) minimumText maximumText raw =
      .ok value) :
    ∃ x : ℚ, value = .float x ∧ (a : ℚ) / 10000 ≤ x ∧ x ≤ (b : ℚ) / 10000 := by
  unfold parseFloatRange at h
  split at h
  · exact absurd h invalid_ne_ok
  · split at h
    · next x hx =>
        cases h
        obtain ⟨-, hrange⟩ := Option.filter_eq_some_iff.1 hx
        obtain ⟨hmin, hmax⟩ := of_decide_eq_true hrange
        exact ⟨_, rfl, roundFour_bounds hround hmin hmax⟩
    · exact absurd h invalid_ne_ok

namespace AdminTables

section

variable [UnicodeData] [PythonLibrary] {t : AdminTables}

/-- A key has its default, or a value that its parser has let through. -/
theorem Sourced.value (ht : t.Sourced) (key : Str) (default : Json)
    (parse : Str → Except AdminError Json)
    (hdefinition : getSettingDefinition key = .ok ⟨key, default, parse⟩) :
    (t.appSettings key = none ∧ getSettingEffective t key = .ok default) ∨
      ∃ value, t.appSettings key = some value ∧ getSettingEffective t key = .ok value ∧
        ∃ raw, parse raw = .ok value := by
  obtain ⟨value, heffective⟩ : ∃ value, getSettingEffective t key = .ok value := by
    rw [getSettingEffective, hdefinition]
    exact ⟨_, rfl⟩
  rcases ht.effective ⟨key, default, parse⟩ hdefinition heffective with
    ⟨hnone, rfl⟩ | ⟨hsome, hparse⟩
  · exact .inl ⟨hnone, heffective⟩
  · exact .inr ⟨value, hsome, heffective, hparse⟩

/-- A setting with bounds has its default, or an integer within them. -/
theorem Sourced.bounded (ht : t.Sourced) (key : Str) (default : Json)
    (parse : Str → Except AdminError Json)
    (hdefinition : getSettingDefinition key = .ok ⟨key, default, parse⟩) {minimum maximum : ℤ}
    (hparse : ∀ raw value, parse raw = .ok value →
      ∃ n, value = .int n ∧ minimum ≤ n ∧ n ≤ maximum) :
    (t.appSettings key = none ∧ getSettingEffective t key = .ok default) ∨
      ∃ n, t.appSettings key = some (.int n) ∧ getSettingEffective t key = .ok (.int n) ∧
        minimum ≤ n ∧ n ≤ maximum := by
  rcases ht.value key default parse hdefinition with hnone | ⟨value, hsome, heffective, raw, hraw⟩
  · exact .inl hnone
  · obtain ⟨n, rfl, hrange⟩ := hparse raw value hraw
    exact .inr ⟨n, hsome, heffective, hrange⟩

/-- The reader of an identifier finds what the panel shows. -/
def IdentifierAsShown (t : AdminTables) (key : Str) : Prop :=
  ∃ value, getInt (t.settingRow key) = .ok value ∧
    getSettingEffective t key = .ok (value.elim .null Json.int)

theorem Sourced.identifier (ht : t.Sourced) (key : Str) (parse : Str → Except AdminError Json)
    (hdefinition : getSettingDefinition key = .ok ⟨key, .null, parse⟩)
    (hparse : ∀ raw value, parse raw = .ok value → ∃ n, value = .int n) :
    t.IdentifierAsShown key := by
  rcases ht.value key .null parse hdefinition with ⟨hnone, heffective⟩ |
    ⟨value, hsome, heffective, raw, hraw⟩
  · exact ⟨none, by rw [settingRow_of_none hnone]; rfl, heffective⟩
  · obtain ⟨n, rfl⟩ := hparse raw value hraw
    exact ⟨some n, by rw [settingRow_of_int hsome]; rfl, heffective⟩

/-! ### The readers -/

/-- **Every reader makes of its row what the panel shows.**  An identifier that is not set is read
as none; the ads are set up when both their settings are, and the base URL begins with
`https://`. -/
structure ReadAsShown (t : AdminTables) : Prop where
  movieDeleteSeconds : getSettingEffective t "movie_delete_seconds".toList =
    .ok (.int (boundedDeleteSeconds t.systemSettings.movieDeleteSeconds))
  rewardSessionSeconds : ∃ ttl, getInt t.systemSettings.rewardSessionSeconds = .ok ttl ∧
    getSettingEffective t "reward_session_seconds".toList = .ok (.int (boundedSessionSeconds ttl))
  initDataMaxAge : ∃ value, getInt t.initDataMaxAge = .ok value ∧
    getSettingEffective t "miniapp_init_data_max_age_seconds".toList =
      .ok (.int (boundedInitDataMaxAge value))
  searchResultLimit : getSettingEffective t "search_result_limit".toList =
    .ok (.int (MovieSearch.boundedResultLimit t.searchSettings.searchResultLimit))
  searchSimilarityThreshold : getSettingEffective t "search_similarity_threshold".toList =
    .ok (.float (MovieSearch.boundedThreshold t.searchSettings.searchSimilarityThreshold))
  identifiers : ∀ key ∈ ["source_channel_id".toList, "archive_channel_id".toList,
    "owner_chat_id".toList], t.IdentifierAsShown key
  ads : ∀ config, t.adsConfig = some config ↔ ∃ url blockId,
    getSettingEffective t "public_base_url".toList = .ok (.str url) ∧
      getSettingEffective t "adsgram_block_id".toList = .ok (.str blockId) ∧
      "https://".toList <+: url ∧ config = (url, blockId)

/-- What is stored as a base URL is shown and read without its last slashes. -/
theorem Sourced.publicBaseUrl (ht : t.Sourced) :
    (t.appSettings "public_base_url".toList = none ∧
        getSettingEffective t "public_base_url".toList = .ok .null) ∨
      ∃ url, t.appSettings "public_base_url".toList = some (.str url) ∧
        getSettingEffective t "public_base_url".toList = .ok (.str url) ∧
        url.rdropWhile (· = '/') = url := by
  rcases ht.value "public_base_url".toList .null parseHttpsUrl rfl with
    hnone | ⟨value, hsome, heffective, raw, hraw⟩
  · exact .inl hnone
  · obtain ⟨rfl, -⟩ := parseHttpsUrl_eq hraw
    exact .inr ⟨_, hsome, heffective, List.rdropWhile_idempotent _ _⟩

/-- What is stored as a block is no blank text, and has no white space around it. -/
theorem Sourced.adsgramBlockId (ht : t.Sourced) :
    (t.appSettings "adsgram_block_id".toList = none ∧
        getSettingEffective t "adsgram_block_id".toList = .ok .null) ∨
      ∃ blockId, t.appSettings "adsgram_block_id".toList = some (.str blockId) ∧
        getSettingEffective t "adsgram_block_id".toList = .ok (.str blockId) ∧
        strip blockId = blockId ∧ blockId.isEmpty = false := by
  rcases ht.value "adsgram_block_id".toList .null parseBlockId rfl with
    hnone | ⟨value, hsome, heffective, raw, hraw⟩
  · exact .inl hnone
  · obtain ⟨blockId, rfl, hblock, rfl⟩ := parseBlockId_spec hraw
    refine .inr ⟨_, hsome, heffective, strip_idem raw, ?_⟩
    cases hstrip : strip raw with
    | nil =>
        rw [hstrip] at hblock
        cases hblock
    | cons c cs => rfl

/-- **The ads are set up** when both their settings are, and the base URL begins with `https://`. -/
theorem Sourced.ads (ht : t.Sourced) (config : Str × Str) :
    t.adsConfig = some config ↔ ∃ url blockId,
    getSettingEffective t "public_base_url".toList = .ok (.str url) ∧
      getSettingEffective t "adsgram_block_id".toList = .ok (.str blockId) ∧
      "https://".toList <+: url ∧ config = (url, blockId) := by
  unfold adsConfig
  rcases ht.publicBaseUrl with ⟨hnone, hurl⟩ | ⟨url, hsome, hurl, hslash⟩
  · rw [hnone, hurl]
    constructor
    · intro h
      cases h
    · rintro ⟨url, blockId, h, -⟩
      cases h
  · rcases ht.adsgramBlockId with ⟨hnone, hblock⟩ | ⟨blockId, hsome', hblock, hstrip, hempty⟩
    · rw [hsome, hnone, hblock]
      constructor
      · intro h
        cases h
      · rintro ⟨url, blockId, -, h, -⟩
        cases h
    · rw [hsome, hsome', hurl, hblock]
      simp only [rewardConfig, Option.bind_some, Json.text?, hslash, hstrip, hempty, Bool.not_false,
        Bool.and_true, List.isPrefixOf_iff_prefix, Except.ok.injEq, Json.str.injEq]
      constructor
      · intro h
        split at h
        · next hbegins => exact ⟨url, blockId, rfl, rfl, hbegins, (Option.some.inj h).symm⟩
        · cases h
      · rintro ⟨url, blockId, rfl, rfl, hbegins, rfl⟩
        rw [if_pos hbegins]

/-- **Settings are read as shown**, after every run of calls of the owner. -/
theorem settings_are_read_as_shown (hround : RoundsFour) (calls : List AdminCall) :
    (Transition.run step .empty calls).ReadAsShown := by
  have ht : (Transition.run step .empty calls).Sourced :=
    Transition.run_invariant (fun _ call ht => ht.step call) sourced_empty calls
  generalize Transition.run step .empty calls = t at *
  constructor
  case movieDeleteSeconds =>
    rcases ht.bounded "movie_delete_seconds".toList (.int 120) (parseDurationRange 5 172000) rfl
      (fun _ _ => parseDurationRange_range) with ⟨hnone, hshown⟩ | ⟨n, hsome, hshown, hmin, hmax⟩
    · have hrow : t.systemSettings.movieDeleteSeconds = none := settingRow_of_none hnone
      rw [hshown, hrow]
      rfl
    · have hrow : t.systemSettings.movieDeleteSeconds = some (.int n) := settingRow_of_int hsome
      rw [hshown, hrow]
      simp only [boundedDeleteSeconds, Except.ok.injEq, Json.int.injEq]
      omega
  case rewardSessionSeconds =>
    rcases ht.bounded "reward_session_seconds".toList (.int 600) (parseDurationRange 60 3600) rfl
      (fun _ _ => parseDurationRange_range) with ⟨hnone, hshown⟩ | ⟨n, hsome, hshown, hmin, hmax⟩
    · have hrow : t.systemSettings.rewardSessionSeconds = none := settingRow_of_none hnone
      exact ⟨none, by rw [hrow]; rfl, hshown⟩
    · have hrow : t.systemSettings.rewardSessionSeconds = some (.int n) := settingRow_of_int hsome
      refine ⟨some n, by rw [hrow]; rfl, ?_⟩
      rw [hshown, boundedSessionSeconds]
      simp only [Except.ok.injEq, Json.int.injEq]
      omega
  case initDataMaxAge =>
    rcases ht.bounded "miniapp_init_data_max_age_seconds".toList (.int 600)
        (parseDurationRange 60 3600) rfl (fun _ _ => parseDurationRange_range) with
      ⟨hnone, hshown⟩ | ⟨n, hsome, hshown, hmin, hmax⟩
    · have hrow : t.initDataMaxAge = none := settingRow_of_none hnone
      exact ⟨none, by rw [hrow]; rfl, hshown⟩
    · have hrow : t.initDataMaxAge = some (.int n) := settingRow_of_int hsome
      refine ⟨some n, by rw [hrow]; rfl, ?_⟩
      rw [hshown, boundedInitDataMaxAge]
      simp only [Except.ok.injEq, Json.int.injEq]
      omega
  case searchResultLimit =>
    have hparse : ∀ raw value, parseIntRange 1 10 raw = .ok value →
        ∃ n, value = .int n ∧ 1 ≤ n ∧ n ≤ 10 := by
      intro raw value h
      obtain ⟨n, hn, hmin, hmax, -⟩ := parseIntRange_range h
      exact ⟨n, hn, hmin, hmax⟩
    rcases ht.bounded "search_result_limit".toList (.int 6) (parseIntRange 1 10) rfl hparse with
      ⟨hnone, hshown⟩ | ⟨n, hsome, hshown, hmin, hmax⟩
    · have hrow : t.searchSettings.searchResultLimit = none := hnone
      rw [hshown, hrow]
      rfl
    · have hrow : t.searchSettings.searchResultLimit = some (.int n) := hsome
      rw [hshown, hrow]
      simp only [MovieSearch.boundedResultLimit, MovieSearch.maxResultLimit, Except.ok.injEq,
        Json.int.injEq]
      omega
  case searchSimilarityThreshold =>
    rcases ht.value "search_similarity_threshold".toList (.float (32 / 100))
      (parseFloatRange (15 / 100) (95 / 100) "0.15" "0.95") rfl with
      ⟨hnone, hshown⟩ | ⟨value, hsome, hshown, raw, hraw⟩
    · have hrow : t.searchSettings.searchSimilarityThreshold = none := hnone
      rw [hshown, hrow]
      rfl
    · -- rounding to four places keeps bounds that have four places themselves
      have hmin : (15 / 100 : ℚ) = (1500 : ℤ) / 10000 := by norm_num
      have hmax : (95 / 100 : ℚ) = (9500 : ℤ) / 10000 := by norm_num
      rw [hmin, hmax] at hraw
      obtain ⟨x, rfl, hlow, hhigh⟩ := parseFloatRange_range hround hraw
      rw [← hmin] at hlow
      rw [← hmax] at hhigh
      have hrow : t.searchSettings.searchSimilarityThreshold = some (.float x) := hsome
      rw [hshown, hrow]
      simp only [MovieSearch.boundedThreshold, Rat.cast_id]
      rw [min_eq_right hhigh, max_eq_right hlow]
  -- an identifier is null until it is stored, and then read as it is
  case identifiers =>
    intro key hkey
    simp only [List.mem_cons, List.not_mem_nil, or_false] at hkey
    rcases hkey with rfl | rfl | rfl
    · exact ht.identifier "source_channel_id".toList parseArchiveChannelId rfl
        fun _ _ => parseArchiveChannelId_ok
    · exact ht.identifier "archive_channel_id".toList parseArchiveChannelId rfl
        fun _ _ => parseArchiveChannelId_ok
    · exact ht.identifier "owner_chat_id".toList parseNonzeroInt rfl
        fun _ _ => parseNonzeroInt_ok
  case ads => exact fun config => ht.ads config

end

section

attribute [local instance] UnicodeData.asciiArabic PythonLibrary.simple

theorem roundsFour_simple : RoundsFour := by
  intro x
  have hlow := Rat.floor_le (x * 10000 + 1 / 2)
  have hhigh := Rat.lt_floor_add_one (x * 10000 + 1 / 2)
  rw [Int.cast_add, Int.cast_one] at hhigh
  refine ⟨(x * 10000 + 1 / 2).floor, rfl, abs_le.2 ⟨?_, ?_⟩⟩ <;> linarith

/-- A base URL in capitals is accepted and shown, and the ads are not set up. -/
theorem settings_are_read_as_shown_capitals :
    let t := Transition.run step .empty
      [.beginEdit 7 "setting".toList "adsgram_block_id".toList, .applySettingEdit 7 "b-1".toList,
        .beginEdit 7 "setting".toList "public_base_url".toList,
        .applySettingEdit 7 "HTTPS://cinegate.example/".toList]
    t.ReadAsShown ∧
      getSettingEffective t "public_base_url".toList =
        .ok (.str "HTTPS://cinegate.example".toList) ∧
      t.adsConfig = none :=
  ⟨settings_are_read_as_shown roundsFour_simple _, rfl, rfl⟩

end

end AdminTables
end CineGate
