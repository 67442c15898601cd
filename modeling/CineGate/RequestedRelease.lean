/-
**The requested release comes first**, as long as it is among the candidates.

The two queries of `MovieSearchService.search` take the nearest titles without a look at the year;
among equally near ones they take the ones with the smallest ids.  What they take is ranked by the
year as well.

* `MovieSearch.IsRelease` — a result with the title and the year of the query;
* `MovieSearch.moviesAhead`, `MovieSearch.filesAhead` — what the queries take before a title;
* `requested_release_comes_first` — a release that is not crowded out, or another one like it, is
  the first result;
* `crowded_release_is_missed` — one that is crowded out is not found.
-/

import CineGate.MovieSearch

set_option relaxedAutoImplicit false
set_option autoImplicit false

namespace CineGate
namespace MovieSearch

variable {𝕜 : Type*}

/-- The movie has the title, or a file of it has. -/
def HasTitle (archive : ArchiveTables) (title : Str) (movie : Movie) : Prop :=
  movie.normalizedTitle = title ∨ ∃ file ∈ archive.qualities, file.movieId = movie.id ∧
    file.normalizedTitle = some title

/-- **The result is a release with this title from this year.** -/
def IsRelease (archive : ArchiveTables) (title : Str) (year : ℕ)
    (result : MovieSearchResult 𝕜) : Prop :=
  result.year = some year ∧
    ∃ movie ∈ archive.movies, movie.id = result.movieId ∧ movie.status = .indexed ∧
      movie.year = some year ∧
      HasTitle archive title movie

variable [Field 𝕜] [LinearOrder 𝕜]

/-- The movies that the first query takes before one with the title of the query. -/
def moviesAhead (archive : ArchiveTables) (distance : Str → Str → 𝕜) (query : Str)
    (movie : Movie) : List Movie :=
  archive.movies.rows.filter fun m =>
    isSearchable archive m && decide (distance m.normalizedTitle query = 0 ∧ m.id < movie.id)

/-- The files that the second query takes before one with the title of the query. -/
def filesAhead (archive : ArchiveTables) (distance : Str → Str → 𝕜) (query : Str)
    (file : MovieQuality) : List MovieQuality :=
  archive.qualities.rows.filter fun f =>
    (aliasRow? archive distance query f).any fun row =>
      decide (row.1.distance = 0 ∧ toLex (f.movieId, f.id) < toLex (file.movieId, file.id))

variable {archive : ArchiveTables} {distance : Str → Str → 𝕜} {query : Str} {limit : ℕ}
  {row : CandidateRow 𝕜} {movie : Movie} {file : MovieQuality}

/-! ### What the queries take -/

omit [Field 𝕜] in
theorem mem_canonicalRows (h : row ∈ canonicalRows archive distance query limit) :
    ∃ movie ∈ archive.movies, isSearchable archive movie = true ∧
      canonicalRow distance query movie = row := by
  have hmem := (List.perm_insertionSort _ _).mem_iff.1 (List.mem_of_mem_take h)
  obtain ⟨movie, hmovie, hrow⟩ := List.mem_map.1 hmem
  obtain ⟨hin, hsearchable⟩ := List.mem_filter.1 hmovie
  exact ⟨movie, hin, hsearchable, hrow⟩

omit [Field 𝕜] [LinearOrder 𝕜] in
theorem aliasRow?_eq_some {row : CandidateRow 𝕜 × ℕ} :
    aliasRow? archive distance query file = some row ↔
      ∃ movie title, archive.movies.find? file.movieId = some movie ∧
        file.normalizedTitle = some title ∧
        movie.status = .indexed ∧ ({ canonicalRow distance query movie with
          matchedTitle := title, distance := distance title query }, file.id) = row := by
  unfold aliasRow?
  constructor
  · intro h
    split at h
    · next movie title hmovie htitle =>
        split at h
        · next hstatus => exact ⟨movie, title, hmovie, htitle, hstatus, Option.some.inj h⟩
        · cases h
    · cases h
  · rintro ⟨movie, title, hmovie, htitle, hstatus, rfl⟩
    rw [hmovie, htitle]
    exact if_pos hstatus

omit [Field 𝕜] in
theorem mem_aliasRows (h : row ∈ aliasRows archive distance query limit) :
    ∃ file ∈ archive.qualities, ∃ fileId,
      aliasRow? archive distance query file = some (row, fileId) := by
  obtain ⟨⟨row', fileId⟩, hmem, rfl⟩ := List.mem_map.1 h
  have hrow := (List.perm_insertionSort _ _).mem_iff.1 (List.mem_of_mem_take hmem)
  obtain ⟨file, hfile, heq⟩ := List.mem_filterMap.1 hrow
  exact ⟨file, hfile, fileId, heq⟩

omit [Field 𝕜] [LinearOrder 𝕜] in
/-- The row of a file is of its movie. -/
theorem id_of_aliasRow? {row : CandidateRow 𝕜 × ℕ}
    (h : aliasRow? archive distance query file = some row) :
    row.1.id = file.movieId ∧ row.2 = file.id := by
  obtain ⟨movie, title, hmovie, -, -, rfl⟩ := aliasRow?_eq_some.1 h
  have hid : movie.id = file.movieId := KeyedTable.key_of_find? hmovie
  exact ⟨hid, rfl⟩

/-- **The first query takes a movie with the title of the query** unless too many are ahead of
it. -/
theorem canonicalRow_mem_iff (hnonneg : ∀ a b, 0 ≤ distance a b) (hself : ∀ a, distance a a = 0)
    (hmovie : movie ∈ archive.movies) (hsearchable : isSearchable archive movie = true)
    (htitle : movie.normalizedTitle = query) :
    canonicalRow distance query movie ∈ canonicalRows archive distance query limit ↔
      (moviesAhead archive distance query movie).length < limit := by
  have hin : movie ∈ archive.movies.rows.filter (isSearchable archive) :=
    List.mem_filter.2 ⟨hmovie, hsearchable⟩
  have hnodup : (((archive.movies.rows.filter (isSearchable archive)).map
      (canonicalRow distance query)).map
        fun row => toLex (row.distance, row.id)).Nodup := by
    rw [List.map_map]
    refine List.pairwise_map.2 ((archive.movies.ordered.filter _).imp fun {m m'} h heq => ?_)
    simp only [Function.comp_apply, toLex_inj, Prod.mk.injEq] at heq
    exact absurd heq.2 (Nat.ne_of_lt h)
  have hzero : distance movie.normalizedTitle query = 0 := by rw [htitle, hself]
  have hahead : (archive.movies.rows.filter fun m =>
      decide (toLex ((canonicalRow distance query m).distance, (canonicalRow distance query m).id) <
        toLex ((canonicalRow distance query movie).distance,
          (canonicalRow distance query movie).id)) &&
      isSearchable archive m) = moviesAhead archive distance query movie := by
    refine List.filter_congr fun m _ => ?_
    have hnot : ¬ distance m.normalizedTitle query < 0 := not_lt.2 (hnonneg _ _)
    rw [Bool.and_comm]
    congr 1
    rw [decide_eq_decide, Prod.Lex.toLex_lt_toLex]
    simp only [canonicalRow, hzero, or_iff_right hnot]
  unfold canonicalRows
  dsimp only
  rw [Ranking.mem_take_insertionSort_iff hnodup (List.mem_map_of_mem hin), List.filter_map,
    List.length_map,
    List.filter_filter]
  exact iff_of_eq (congrArg (fun l : List Movie => l.length < limit) hahead)

/-- **The second query takes a file with the title of the query** unless too many are ahead of
it. -/
theorem aliasRow_mem (hnonneg : ∀ a b, 0 ≤ distance a b) (hself : ∀ a, distance a a = 0)
    (hfile : file ∈ archive.qualities) {row : CandidateRow 𝕜 × ℕ}
    (hrow : aliasRow? archive distance query file = some row)
    (htitle : file.normalizedTitle = some query)
    (hroom : (filesAhead archive distance query file).length < limit) :
    row.1 ∈ aliasRows archive distance query limit := by
  have hin : row ∈ archive.qualities.rows.filterMap (aliasRow? archive distance query) :=
    List.mem_filterMap.2 ⟨file, hfile, hrow⟩
  have hnodup : ((archive.qualities.rows.filterMap (aliasRow? archive distance query)).map
      fun row => toLex (row.1.distance, toLex (row.1.id, row.2))).Nodup := by
    refine List.pairwise_map.2 ?_
    refine List.pairwise_filterMap.2 (archive.qualities.ordered.imp ?_)
    intro f f' hlt r hr r' hr' heq
    simp only [toLex_inj, Prod.mk.injEq] at heq
    rw [(id_of_aliasRow? hr).2, (id_of_aliasRow? hr').2] at heq
    exact absurd heq.2.2 (Nat.ne_of_lt hlt)
  have hzero : row.1.distance = 0 := by
    obtain ⟨_, title, -, htitle', -, rfl⟩ := aliasRow?_eq_some.1 hrow
    rw [Option.some.inj (htitle.symm.trans htitle')]
    exact hself title
  -- only rows at distance 0 with a smaller id can be before the row
  have hahead :
      ((archive.qualities.rows.filterMap (aliasRow? archive distance query)).filter fun r =>
        decide (toLex (r.1.distance, toLex (r.1.id, r.2)) <
          toLex (row.1.distance, toLex (row.1.id, row.2)))).length =
          (filesAhead archive distance query file).length := by
    unfold filesAhead
    rw [List.filter_filterMap, List.length_filterMap_eq_countP, ← List.countP_eq_length_filter]
    refine List.countP_congr fun f _ => ?_
    cases hf : aliasRow? archive distance query f with
    | none => simp
    | some r =>
        have hnot : ¬ r.1.distance < 0 := by
          obtain ⟨_, title, -, -, -, rfl⟩ := aliasRow?_eq_some.1 hf
          exact not_lt.2 (hnonneg _ _)
        rw [Option.any_some, Option.isSome_filter, Option.any_some, decide_eq_true_iff,
          decide_eq_true_iff,
          Prod.Lex.toLex_lt_toLex, hzero, or_iff_right hnot]
        rw [(id_of_aliasRow? hf).1, (id_of_aliasRow? hf).2, (id_of_aliasRow? hrow).1,
          (id_of_aliasRow? hrow).2]
  unfold aliasRows
  refine List.mem_map_of_mem ?_
  rw [Ranking.mem_take_insertionSort_iff hnodup hin, hahead]
  exact hroom

/-! ### What comes first -/

variable [UnicodeData] {settings : SearchSettings} {year : ℕ} {threshold : 𝕜} {rank : SearchRank 𝕜}
  {rows : List (CandidateRow 𝕜)} {x : 𝕜 ×ₗ Str ×ₗ ℕ}

/-- A row with the title of the query from the requested year has the best category and no
penalty. -/
theorem rank?_of_exact (hquery : query ≠ []) (htitle : row.matchedTitle = query)
    (hyear : row.year = some year) :
    rank? query (some year) threshold row =
      some (toLex (0, toLex
        (0, toLex (-similarity row, toLex (casefold row.displayTitle, row.id))))) := by
  have hcategory : matchCategory query row.matchedTitle (similarity row) threshold = some 0 :=
    if_pos htitle
  have hpenalty : yearPenalty (some year) row = 0 := if_pos (.inr hyear)
  unfold rank?
  rw [if_neg (htitle ▸ hquery), hcategory, hpenalty]
  rfl

/-- **No other row does as well.** -/
theorem exact_of_rank_le (h : rank? query (some year) threshold row = some rank)
    (hle : rank ≤ toLex (0, toLex (0, x))) : row.matchedTitle = query ∧ row.year = some year := by
  obtain ⟨-, category, hcategory, rfl⟩ := rank?_eq_some h
  rw [Prod.Lex.toLex_le_toLex] at hle
  have hzero : category = 0 := by
    rcases hle with hlt | ⟨heq, -⟩
    · exact absurd hlt (Nat.not_lt_zero _)
    · exact heq
  have hpenalty : yearPenalty (some year) row = 0 := by
    rcases hle with hlt | ⟨-, hle⟩
    · exact absurd hlt (Nat.not_lt_zero _)
    · rcases Prod.Lex.toLex_le_toLex.1 hle with hlt | ⟨heq, -⟩
      · exact absurd hlt (Nat.not_lt_zero _)
      · exact heq
  constructor
  · unfold matchCategory at hcategory
    split at hcategory
    · next htitle => exact htitle
    · split_ifs at hcategory
      all_goals
        rw [hzero] at hcategory
        cases hcategory
  · unfold yearPenalty at hpenalty
    split at hpenalty
    · next hyear => exact hyear.resolve_left (by simp)
    · cases hpenalty

/-- **When a row has the title and the year of the query**, so has the row of the first result. -/
theorem first_is_exact (settings : SearchSettings) (hquery : query ≠ []) (hrow : row ∈ rows)
    (htitle : row.matchedTitle = query) (hyear : row.year = some year) :
    ∃ m rest, topMatches settings query (some year) rows = m :: rest ∧
      ∃ first ∈ rows, resultOf first = m.2 ∧ first.matchedTitle = query ∧
        first.year = some year := by
  have hrank : rank? query (some year) (boundedThreshold settings.searchSimilarityThreshold) row =
      _ :=
    rank?_of_exact hquery htitle hyear
  have hadmissible : _ ∈ admissibleRanks settings query (some year) rows row.id :=
    ⟨row, hrow, rfl, hrank⟩
  -- the first match ranks no later than this row
  have hfirst : ∃ m rest, topMatches settings query (some year) rows = m :: rest ∧
      m.1 ≤ toLex (0, toLex
        (0, toLex (-similarity row, toLex (casefold row.displayTitle, row.id)))) := by
    have hlimit := (boundedResultLimit_bounds settings.searchResultLimit).1
    have hsorted : (topMatches settings query (some year) rows).Pairwise fun m m' => m.1 < m'.1 :=
      pairwise_topMatches
    have hcases := kept_or_after hadmissible
    cases htop : topMatches settings query (some year) rows with
    | nil =>
        rw [htop] at hcases
        rcases hcases with ⟨m, hm, -⟩ | ⟨hlength, -⟩
        · cases hm
        · rw [List.length_nil] at hlength
          omega
    | cons m rest =>
        rw [htop] at hcases hsorted
        refine ⟨m, rest, rfl, ?_⟩
        rcases hcases with ⟨m', hm', -, hle⟩ | ⟨-, hafter⟩
        · rcases List.mem_cons.1 hm' with rfl | hm'
          · exact hle
          · exact ((List.pairwise_cons.1 hsorted).1 m' hm').le.trans hle
        · exact (hafter m List.mem_cons_self).le
  obtain ⟨m, rest, htop, hle⟩ := hfirst
  obtain ⟨first, hfirst, hrank', hresult, -⟩ :=
    mem_topMatches (htop ▸ List.mem_cons_self : m ∈ topMatches _ _ _ _)
  exact ⟨m, rest, htop, first, hfirst, hresult, exact_of_rank_le hrank' hle⟩

omit [UnicodeData] in
/-- A row with the title and the year of the query is of such a release. -/
theorem isRelease_of_exact (hrow : row ∈ canonicalRows archive distance query limit ++
      aliasRows archive distance query limit)
    (htitle : row.matchedTitle = query) (hyear : row.year = some year) :
    IsRelease archive query year (resultOf row) := by
  refine ⟨hyear, ?_⟩
  rcases List.mem_append.1 hrow with hrow | hrow
  · obtain ⟨movie, hmovie, hsearchable, rfl⟩ := mem_canonicalRows hrow
    have hindexed : movie.status = .indexed :=
      of_decide_eq_true (Bool.and_eq_true_iff.1 hsearchable).1
    exact ⟨movie, hmovie, rfl, hindexed, hyear, .inl htitle⟩
  · obtain ⟨file, hfile, fileId, hsome⟩ := mem_aliasRows hrow
    obtain ⟨movie, title, hmovie, htitle', hindexed, heq⟩ := aliasRow?_eq_some.1 hsome
    obtain ⟨rfl, -⟩ := Prod.mk.inj heq
    have hid : movie.id = file.movieId := KeyedTable.key_of_find? hmovie
    have hname : title = query := htitle
    exact ⟨movie, KeyedTable.mem_of_find? hmovie, rfl, hindexed, hyear,
      .inr ⟨file, hfile, hid.symm, hname ▸ htitle'⟩⟩

theorem searchTerms_ne_nil {rawQuery : Str} {requestedYear : Option ℕ}
    (h : searchTerms rawQuery = .ok (some (query, requestedYear))) : query ≠ [] := by
  unfold searchTerms at h
  dsimp only at h
  split_ifs at h with hempty hlong hnone
  · cases Except.ok.inj h
  · cases Except.ok.inj h
  · obtain ⟨rfl, -⟩ := Prod.mk.inj (Option.some.inj (Except.ok.inj h))
    exact hnone

/-- **The requested release comes first.** The query asks for a title and a year, and an indexed
movie from that year has the title, itself or through a file.  Unless the candidates are used up by
others that are as near and have smaller ids, the first result is such a release. -/
theorem requested_release_comes_first (archive : ArchiveTables) (distance : Str → Str → 𝕜)
    (settings : SearchSettings) (rawQuery title : Str) (year : ℕ)
    (hnonneg : ∀ a b, 0 ≤ distance a b) (hself : ∀ a, distance a a = 0)
    (hterms : searchTerms rawQuery = .ok (some (title, some year)))
    (hroom :
      (∃ movie ∈ archive.movies, isSearchable archive movie = true ∧ movie.normalizedTitle = title ∧
        movie.year = some year ∧ (moviesAhead archive distance title movie).length <
          candidateLimit (boundedResultLimit settings.searchResultLimit)) ∨
      ∃ movie ∈ archive.movies, movie.status = .indexed ∧ movie.year = some year ∧
        ∃ file ∈ archive.qualities, file.movieId = movie.id ∧ file.normalizedTitle = some title ∧
          (filesAhead archive distance title file).length <
            candidateLimit (boundedResultLimit settings.searchResultLimit)) :
    ∃ first rest, search archive distance settings rawQuery = .ok (first :: rest) ∧
      IsRelease archive title year first := by
  have hrow : ∃ row ∈ canonicalRows archive distance title
        (candidateLimit (boundedResultLimit settings.searchResultLimit)) ++
      aliasRows archive distance title
        (candidateLimit (boundedResultLimit settings.searchResultLimit)),
      row.matchedTitle = title ∧ row.year = some year := by
    -- the film is a candidate by its own title or by that of one of its files
    rcases hroom with ⟨movie, hmovie, hsearchable, htitle, hyear, hroom⟩ |
      ⟨movie, hmovie, hindexed, hyear, file, hfile, hid, htitle, hroom⟩
    · refine ⟨canonicalRow distance title movie, List.mem_append_left _ ?_, htitle, hyear⟩
      exact (canonicalRow_mem_iff hnonneg hself hmovie hsearchable htitle).2 hroom
    · have hfind : archive.movies.find? file.movieId = some movie := by
        rw [hid]
        exact KeyedTable.find?_of_mem hmovie
      have hsome : aliasRow? archive distance title file = _ :=
        aliasRow?_eq_some.2 ⟨movie, title, hfind, htitle, hindexed, rfl⟩
      exact ⟨_, List.mem_append_right _ (aliasRow_mem hnonneg hself hfile hsome htitle hroom),
        rfl, hyear⟩
  obtain ⟨row, hrow, htitle, hyear⟩ := hrow
  obtain ⟨m, rest, htop, first, hfirst, hresult, hexact⟩ :=
    first_is_exact settings (searchTerms_ne_nil hterms) hrow htitle hyear
  refine ⟨m.2, rest.map Prod.snd, ?_, hresult ▸ isRelease_of_exact hfirst hexact.1 hexact.2⟩
  unfold search
  rw [hterms]
  change Except.ok (rankResults settings title (some year) _ _) = _
  unfold rankResults
  rw [htop]
  rfl

end MovieSearch

namespace MovieSearch

attribute [local instance] UnicodeData.asciiArabic

/-- A film called King Kong. -/
def kingKong (id year : ℕ) : Movie where
  id
  archiveChannelId := 7
  posterMessageId := 2 * id
  displayTitle := "King Kong".toList
  normalizedTitle := "king kong".toList
  year := some year
  parserStyle := .modern
  status := .indexed
  rawPosterCaption := "King Kong".toList
  parserConfidence := 90
  ownerNotificationMessageId := none
  ownerNotificationQualityCount := 0

/-- Its file. -/
def kingKongFile (id : ℕ) : MovieQuality where
  id
  movieId := id
  archiveChannelId := 7
  archiveMessageId := 2 * id + 1
  quality := .p720
  rawCaption := "720p".toList
  extractedTitle := none
  normalizedTitle := none
  extractedYear := none
  parserConfidence := 90

/-- As many films from 1933 as there are, and one from 2005. -/
def kingKongs (n : ℕ) : ArchiveTables where
  snapshots := .empty
  movies := (List.range (n + 1)).foldl
    (fun t i => t.insert (kingKong (i + 1) (if i = n then 2005 else 1933))) .empty
  qualities := (List.range (n + 1)).foldl (fun t i => t.insert (kingKongFile (i + 1))) .empty

/-- Texts that are equal or not. -/
def discrete (a b : Str) : ℚ := if a = b then 0 else 1

/-- With thirty films from 1933, the one from 2005 is not found. -/
theorem crowded_release_is_missed :
    (∃ movie ∈ (kingKongs 30).movies.rows, isSearchable (kingKongs 30) movie = true ∧
        movie.normalizedTitle = "king kong".toList ∧ movie.year = some 2005) ∧
      searchTerms "King Kong 2005".toList = .ok (some ("king kong".toList, some 2005)) ∧
      (search (kingKongs 30) discrete {} "King Kong 2005".toList).map
          (fun results => results.map fun r => r.year) =
        .ok (List.replicate 6 (some 1933)) := by
  decide +kernel

theorem requested_release_comes_first_kingKongs :
    ∃ first rest, search (kingKongs 1) discrete {} "King Kong 2005".toList = .ok (first :: rest) ∧
      IsRelease (kingKongs 1) "king kong".toList 2005 first := by
  refine requested_release_comes_first (kingKongs 1) discrete {} "King Kong 2005".toList
    "king kong".toList 2005 ?_ ?_ ?_ (.inl ⟨kingKong 2 2005, ?_, ?_, ?_, ?_, ?_⟩)
  · intro a b
    unfold discrete
    split <;> decide +kernel
  · intro a
    exact if_pos rfl
  · decide +kernel
  · exact (by decide +kernel : kingKong 2 2005 ∈ (kingKongs 1).movies.rows)
  · decide +kernel
  · rfl
  · rfl
  · decide +kernel

end MovieSearch
end CineGate
