/-
**The search for movies.**

`services/movie_search.py`.  Two queries give the candidate rows, the canonical titles and the
titles of the files, each with its trigram distance to the query; each movie keeps the row of its
least rank, and the best movies are the results.  The distance is any function into an ordered
field.

* `MovieSearch.rank?` — the rank of a row;
* `MovieSearch.topMatches`, `MovieSearch.search` — the results, and the whole of `search`;
* `MovieSearch.admissibleRanks` — the ranks of a movie;
* `ranking_is_top_k` — the results are the best movies, whatever the order of the rows.
-/

import CineGate.ArchiveTables
import CineGate.Ranking
import CineGate.Templates
import CineGate.Text
import Mathlib.Algebra.Field.Rat
import Mathlib.Algebra.Order.Ring.Rat
import Mathlib.Data.Char
import Mathlib.Data.List.Infix
import Mathlib.Data.List.Lex
import Mathlib.Data.Prod.Lex

set_option relaxedAutoImplicit false
set_option autoImplicit false

namespace CineGate

/-- `SearchQueryError`. -/
structure SearchQueryError where
  message : String
deriving DecidableEq, Repr

/-- The rows of `app_settings` that the search reads. -/
structure SearchSettings where
  searchResultLimit : Option Json := none
  searchSimilarityThreshold : Option Json := none

structure MovieSearchResult (𝕜 : Type*) where
  movieId : ℕ
  displayTitle : Str
  year : Option ℕ
  score : 𝕜
deriving DecidableEq

/-- A row of one of the two queries. -/
structure CandidateRow (𝕜 : Type*) where
  id : ℕ
  displayTitle : Str
  year : Option ℕ
  matchedTitle : Str
  distance : 𝕜
deriving DecidableEq

/-- Category, year penalty, negated similarity, title and id, in this order. -/
abbrev SearchRank (𝕜 : Type*) := ℕ ×ₗ ℕ ×ₗ 𝕜 ×ₗ Str ×ₗ ℕ

namespace MovieSearch

/-- `_MAX_RAW_QUERY_LENGTH`. -/
def maxRawQueryLength : ℕ := 128

/-- `_DEFAULT_RESULT_LIMIT`. -/
def defaultResultLimit : ℕ := 6

/-- `_MAX_RESULT_LIMIT`. -/
def maxResultLimit : ℕ := 10

/-- `_MAX_CANDIDATES`. -/
def maxCandidates : ℕ := 50

/-- `_bounded_result_limit`. -/
def boundedResultLimit : Option Json → ℕ
  | some (.int value) => (max 1 (min (maxResultLimit : ℤ) value)).toNat
  | _ => defaultResultLimit

/-- `candidate_limit`. -/
def candidateLimit (resultLimit : ℕ) : ℕ := min (max (resultLimit * 5) 20) maxCandidates

variable {𝕜 : Type*} [Field 𝕜] [LinearOrder 𝕜]

/-- `_bounded_threshold`. -/
def boundedThreshold : Option Json → 𝕜
  | some (.int value) => max (15 / 100) (min (95 / 100) (value : 𝕜))
  | some (.float value) => max (15 / 100) (min (95 / 100) (value : 𝕜))
  | _ => 32 / 100

/-- `_match_category`. -/
def matchCategory (query candidate : Str) (similarity threshold : 𝕜) : Option ℕ :=
  if candidate = query then some 0
  else if query <+: candidate then some 1
  else if 2 ≤ query.length ∧ query <:+: candidate then some 2
  else if 3 ≤ query.length ∧ threshold ≤ similarity then some 3
  else none

/-- The similarity of a row, between 0 and 1. -/
def similarity (row : CandidateRow 𝕜) : 𝕜 := max 0 (min 1 (1 - row.distance))

/-- A row of another year than the requested one. -/
def yearPenalty (requestedYear : Option ℕ) (row : CandidateRow 𝕜) : ℕ :=
  if requestedYear = none ∨ row.year = requestedYear then 0 else 1

variable [UnicodeData]

/-- The rank of a row, if it is a match at all. -/
def rank? (query : Str) (requestedYear : Option ℕ) (threshold : 𝕜) (row : CandidateRow 𝕜) :
    Option (SearchRank 𝕜) :=
  if row.matchedTitle = [] then none
  else
    (matchCategory query row.matchedTitle (similarity row) threshold).map fun category =>
      toLex (category, toLex (yearPenalty requestedYear row, toLex (-similarity row,
        toLex (casefold row.displayTitle, row.id))))

/-- What is shown of a row. -/
def resultOf (row : CandidateRow 𝕜) : MovieSearchResult 𝕜 where
  movieId := row.id
  displayTitle := row.displayTitle
  year := row.year
  score := similarity row

/-- The movie of a row, with its rank and what is shown of it. -/
def scored? (query : Str) (requestedYear : Option ℕ) (threshold : 𝕜) (row : CandidateRow 𝕜) :
    Option (ℕ × SearchRank 𝕜 × MovieSearchResult 𝕜) :=
  (rank? query requestedYear threshold row).map fun rank => (row.id, rank, resultOf row)

/-- `ranked[:result_limit]`: the best row of each movie, with its rank. -/
def topMatches (settings : SearchSettings) (query : Str) (requestedYear : Option ℕ)
    (rows : List (CandidateRow 𝕜)) : List (SearchRank 𝕜 × MovieSearchResult 𝕜) :=
  (Ranking.ranked (rows.filterMap (scored? query requestedYear
    (boundedThreshold settings.searchSimilarityThreshold)))).take
      (boundedResultLimit settings.searchResultLimit)

/-- The results of a search, for the rows of its queries. -/
def rankResults (settings : SearchSettings) (query : Str) (requestedYear : Option ℕ)
    (canonicalRows aliasRows : List (CandidateRow 𝕜)) : List (MovieSearchResult 𝕜) :=
  (topMatches settings query requestedYear (canonicalRows ++ aliasRows)).map Prod.snd

/-! ### The queries -/

/-- A movie that can be found: it is indexed and has a file. -/
def isSearchable (archive : ArchiveTables) (movie : Movie) : Bool :=
  movie.status = .indexed && archive.qualities.rows.any fun row => row.movieId = movie.id

/-- The row of a movie under its own title. -/
def canonicalRow (distance : Str → Str → 𝕜) (query : Str) (movie : Movie) : CandidateRow 𝕜 where
  id := movie.id
  displayTitle := movie.displayTitle
  year := movie.year
  matchedTitle := movie.normalizedTitle
  distance := distance movie.normalizedTitle query

/-- The first query: canonical titles, by distance and id. -/
def canonicalRows (archive : ArchiveTables) (distance : Str → Str → 𝕜) (query : Str) (limit : ℕ) :
    List (CandidateRow 𝕜) :=
  let rows := (archive.movies.rows.filter (isSearchable archive)).map (canonicalRow distance query)
  (rows.insertionSort fun a b => toLex (a.distance, a.id) ≤ toLex (b.distance, b.id)).take limit

/-- The row of a file with a title, when its movie is indexed, and the id of the file. -/
def aliasRow? (archive : ArchiveTables) (distance : Str → Str → 𝕜) (query : Str)
    (file : MovieQuality) :
    Option (CandidateRow 𝕜 × ℕ) :=
  match archive.movies.find? file.movieId, file.normalizedTitle with
  | some movie, some title =>
      if movie.status = .indexed then
        some ({ canonicalRow distance query movie with
          matchedTitle := title, distance := distance title query }, file.id)
      else none
  | _, _ => none

/-- The second query: titles of files, by distance, movie and id. -/
def aliasRows (archive : ArchiveTables) (distance : Str → Str → 𝕜) (query : Str) (limit : ℕ) :
    List (CandidateRow 𝕜) :=
  let rows := archive.qualities.rows.filterMap (aliasRow? archive distance query)
  ((rows.insertionSort fun a b =>
    toLex (a.1.distance, toLex (a.1.id, a.2)) ≤
      toLex (b.1.distance, toLex (b.1.id, b.2))).take limit).map Prod.fst

/-- The title and the year a query asks for; a query without a title finds nothing. -/
def searchTerms (rawQuery : Str) : Except SearchQueryError (Option (Str × Option ℕ)) :=
  let query := strip rawQuery
  if query = [] then .ok none
  else if maxRawQueryLength < query.length then
    .error ⟨s!"search query exceeds {maxRawQueryLength} characters"⟩
  else
    let normalized := normalizeTitle query
    if normalized = [] then .ok none else .ok (some (normalized, extractReleaseYear query))

/-- `search`. -/
def search (archive : ArchiveTables) (distance : Str → Str → 𝕜) (settings : SearchSettings)
    (rawQuery : Str) :
    Except SearchQueryError (List (MovieSearchResult 𝕜)) :=
  (searchTerms rawQuery).map fun
    | none => []
    | some (query, requestedYear) =>
        let limit := candidateLimit (boundedResultLimit settings.searchResultLimit)
        rankResults settings query requestedYear (canonicalRows archive distance query limit)
          (aliasRows archive distance query limit)

/-! ### The ranking -/

/-- The ranks of a movie, over all the rows of it that are matches. -/
def admissibleRanks (settings : SearchSettings) (query : Str) (requestedYear : Option ℕ)
    (rows : List (CandidateRow 𝕜)) (movieId : ℕ) : Set (SearchRank 𝕜) :=
  {rank | ∃ row ∈ rows, row.id = movieId ∧
    rank? query requestedYear (boundedThreshold settings.searchSimilarityThreshold) row = some rank}

/-- Rows of equal rank show the same title and year. -/
def Agree (settings : SearchSettings) (query : Str) (requestedYear : Option ℕ)
    (rows : List (CandidateRow 𝕜)) : Prop :=
  ∀ row ∈ rows, ∀ row' ∈ rows, ∀ rank,
    rank? query requestedYear (boundedThreshold settings.searchSimilarityThreshold) row =
      some rank →
    rank? query requestedYear (boundedThreshold settings.searchSimilarityThreshold) row' =
      some rank →
    row.displayTitle = row'.displayTitle ∧ row.year = row'.year

variable {settings : SearchSettings} {query : Str} {requestedYear : Option ℕ}
  {rows rows' : List (CandidateRow 𝕜)} {row row' : CandidateRow 𝕜} {threshold : 𝕜}
  {rank : SearchRank 𝕜} {result : MovieSearchResult 𝕜} {movieId : ℕ}

/-- A rank says which movie it is of, and how similar the row is. -/
theorem rank?_eq_some (h : rank? query requestedYear threshold row = some rank) :
    row.matchedTitle ≠ [] ∧ ∃ category,
      matchCategory query row.matchedTitle (similarity row) threshold = some category ∧
      rank = toLex (category, toLex (yearPenalty requestedYear row, toLex (-similarity row,
        toLex (casefold row.displayTitle, row.id)))) := by
  unfold rank? at h
  split at h
  · cases h
  · next htitle =>
      obtain ⟨category, hcategory, rfl⟩ := Option.map_eq_some_iff.1 h
      exact ⟨htitle, category, hcategory, rfl⟩

/-- Two rows of one rank are of one movie and equally similar. -/
theorem eq_of_rank? (h : rank? query requestedYear threshold row = some rank)
    (h' : rank? query requestedYear threshold row' = some rank) :
    row.id = row'.id ∧ similarity row = similarity row' := by
  obtain ⟨-, category, -, rfl⟩ := rank?_eq_some h
  obtain ⟨-, category', -, heq⟩ := rank?_eq_some h'
  simp only [toLex_inj, Prod.mk.injEq, neg_inj] at heq
  exact ⟨heq.2.2.2.2, heq.2.2.1⟩

theorem mem_entries :
    (movieId, rank, result) ∈ rows.filterMap (scored? query requestedYear threshold) ↔
      ∃ row ∈ rows, rank? query requestedYear threshold row = some rank ∧ row.id = movieId ∧
        resultOf row = result := by
  simp only [List.mem_filterMap, scored?, Option.map_eq_some_iff, Prod.mk.injEq]
  constructor
  · rintro ⟨row, hrow, _, hrank, rfl, rfl, rfl⟩
    exact ⟨row, hrow, hrank, rfl, rfl⟩
  · rintro ⟨row, hrow, hrank, rfl, rfl⟩
    exact ⟨row, hrow, rank, hrank, rfl, rfl, rfl⟩

theorem separated_entries :
    Ranking.Separated (rows.filterMap (scored? query requestedYear threshold)) := by
  rintro ⟨id, rank, result⟩ he ⟨id', rank', result'⟩ he' (rfl : rank = rank')
  obtain ⟨row, -, hrank, rfl, -⟩ := mem_entries.1 he
  obtain ⟨row', -, hrank', rfl, -⟩ := mem_entries.1 he'
  exact (eq_of_rank? hrank hrank').1

theorem ranksOf_entries :
    Ranking.ranksOf (rows.filterMap (scored? query requestedYear
      (boundedThreshold settings.searchSimilarityThreshold))) movieId =
      admissibleRanks settings query requestedYear rows movieId := by
  ext rank
  constructor
  · rintro ⟨result, hmem⟩
    obtain ⟨row, hrow, hrank, hid, -⟩ := mem_entries.1 hmem
    exact ⟨row, hrow, hid, hrank⟩
  · rintro ⟨row, hrow, hid, hrank⟩
    exact ⟨resultOf row, mem_entries.2 ⟨row, hrow, hrank, hid, rfl⟩⟩

omit [UnicodeData] in
theorem boundedResultLimit_bounds (value : Option Json) :
    1 ≤ boundedResultLimit value ∧ boundedResultLimit value ≤ maxResultLimit := by
  unfold boundedResultLimit
  split
  · unfold maxResultLimit
    omega
  · decide

/-- **A match that is kept** is the best row of its movie. -/
theorem mem_topMatches {m : SearchRank 𝕜 × MovieSearchResult 𝕜}
    (h : m ∈ topMatches settings query requestedYear rows) :
    ∃ row ∈ rows,
      rank? query requestedYear (boundedThreshold settings.searchSimilarityThreshold) row =
        some m.1 ∧
      resultOf row = m.2 ∧
      IsLeast (admissibleRanks settings query requestedYear rows m.2.movieId) m.1 := by
  obtain ⟨movieId, hmem, hleast⟩ := Ranking.mem_ranked (List.mem_of_mem_take h)
  obtain ⟨row, hrow, hrank, hid, hresult⟩ := mem_entries.1 hmem
  have hmovie : m.2.movieId = movieId := by
    rw [← hresult, ← hid]
    rfl
  rw [ranksOf_entries, ← hmovie] at hleast
  exact ⟨row, hrow, hrank, hresult, hleast⟩

theorem pairwise_topMatches :
    (topMatches settings query requestedYear rows).Pairwise fun m m' => m.1 < m'.1 :=
  (Ranking.pairwise_ranked separated_entries).sublist (List.take_sublist _ _)

/-- **A movie that is left out** ranks after every match that is kept, and there is no room for
it. -/
theorem kept_or_after (h : rank ∈ admissibleRanks settings query requestedYear rows movieId) :
    (∃ m ∈ topMatches settings query requestedYear rows, m.2.movieId = movieId ∧ m.1 ≤ rank) ∨
      (topMatches settings query requestedYear rows).length =
        boundedResultLimit settings.searchResultLimit ∧
        ∀ m ∈ topMatches settings query requestedYear rows, m.1 < rank := by
  rw [← ranksOf_entries] at h
  obtain ⟨x, hx, hentry, hle⟩ := Ranking.exists_ranked h
  obtain ⟨row, -, -, hid, hresult⟩ := mem_entries.1 hentry
  have hmovie : x.2.movieId = movieId := by
    rw [← hresult, ← hid]
    rfl
  have hsorted : (Ranking.ranked (rows.filterMap (scored? query requestedYear
      (boundedThreshold settings.searchSimilarityThreshold)))).Pairwise fun x y => x.1 < y.1 :=
    Ranking.pairwise_ranked separated_entries
  unfold topMatches
  rw [← List.take_append_drop (boundedResultLimit settings.searchResultLimit)
    (Ranking.ranked _)] at hx hsorted
  rcases List.mem_append.1 hx with hx | hx
  · exact .inl ⟨x, hx, hmovie, hle⟩
  · refine .inr ⟨?_, fun m hm => ((List.pairwise_append.1 hsorted).2.2 m hm x hx).trans_le hle⟩
    -- something is left over, so as many are kept as there may be
    have hlong := List.length_pos_of_mem hx
    rw [List.length_drop] at hlong
    rw [List.length_take]
    omega

/-- **The ranks that are kept** do not depend on the order of the rows. -/
theorem ranks_topMatches_perm (h : rows.Perm rows') :
    (topMatches settings query requestedYear rows).map Prod.fst =
      (topMatches settings query requestedYear rows').map Prod.fst := by
  unfold topMatches
  rw [List.map_take, List.map_take, Ranking.ranks_perm separated_entries (h.filterMap _)]

/-- Neither do the matches, when rows of equal rank agree. -/
theorem topMatches_perm (hagree : Agree settings query requestedYear rows) (h : rows.Perm rows') :
    topMatches settings query requestedYear rows =
      topMatches settings query requestedYear rows' := by
  unfold topMatches
  rw [Ranking.ranked_perm separated_entries (h.filterMap _)]
  rintro ⟨id, rank, result⟩ he ⟨id', rank', result'⟩ he' (rfl : rank = rank')
  obtain ⟨row, hrow, hrank, -, rfl⟩ := mem_entries.1 he
  obtain ⟨row', hrow', hrank', -, rfl⟩ := mem_entries.1 he'
  obtain ⟨htitle, hyear⟩ := hagree row hrow row' hrow' rank hrank hrank'
  obtain ⟨hid, hscore⟩ := eq_of_rank? hrank hrank'
  unfold resultOf
  rw [hid, htitle, hyear, hscore]

/-- **The results are the best movies.** Each movie is there at most once, with the least of the
ranks of its rows; the results are in the order of their ranks and at most as many as the limit
allows; a movie that is left out ranks after all of them.  The ranks do not depend on the order of
the rows, and the results do not when rows of equal rank show the same title and year. -/
theorem ranking_is_top_k (settings : SearchSettings) (query : Str) (requestedYear : Option ℕ)
    (canonicalRows aliasRows : List (CandidateRow 𝕜)) :
    ((rankResults settings query requestedYear canonicalRows aliasRows).map
      MovieSearchResult.movieId).Nodup ∧
      (∀ m ∈ topMatches settings query requestedYear (canonicalRows ++ aliasRows),
        ∃ row ∈ canonicalRows ++ aliasRows,
          rank? query requestedYear (boundedThreshold settings.searchSimilarityThreshold) row =
            some m.1 ∧
          resultOf row = m.2 ∧
          IsLeast (admissibleRanks settings query requestedYear (canonicalRows ++ aliasRows)
            m.2.movieId) m.1) ∧
      ((topMatches settings query requestedYear (canonicalRows ++ aliasRows)).Pairwise fun m m' =>
        m.1 < m'.1) ∧
      ((rankResults settings query requestedYear canonicalRows aliasRows).length ≤
          boundedResultLimit settings.searchResultLimit ∧
        boundedResultLimit settings.searchResultLimit ≤ maxResultLimit) ∧
      (∀ movieId,
        ∀ rank ∈ admissibleRanks settings query requestedYear (canonicalRows ++ aliasRows) movieId,
        movieId ∉ (rankResults settings query requestedYear canonicalRows aliasRows).map
          MovieSearchResult.movieId →
        (rankResults settings query requestedYear canonicalRows aliasRows).length =
            boundedResultLimit settings.searchResultLimit ∧
          ∀ m ∈ topMatches settings query requestedYear (canonicalRows ++ aliasRows), m.1 < rank) ∧
      ∀ canonicalRows' aliasRows',
        (canonicalRows ++ aliasRows).Perm (canonicalRows' ++ aliasRows') →
        (topMatches settings query requestedYear (canonicalRows ++ aliasRows)).map Prod.fst =
            (topMatches settings query requestedYear (canonicalRows' ++ aliasRows')).map Prod.fst ∧
          (Agree settings query requestedYear (canonicalRows ++ aliasRows) →
            rankResults settings query requestedYear canonicalRows aliasRows =
              rankResults settings query requestedYear canonicalRows' aliasRows') := by
  have hlength : ∀ rows : List (CandidateRow 𝕜),
      (topMatches settings query requestedYear rows).length ≤
        boundedResultLimit settings.searchResultLimit := fun rows => List.length_take_le _ _
  refine ⟨?_, fun m hm => mem_topMatches hm, pairwise_topMatches,
    ⟨?_, (boundedResultLimit_bounds _).2⟩, ?_, ?_⟩
  · unfold rankResults
    rw [List.map_map]
    have hranks : ((topMatches settings query requestedYear (canonicalRows ++ aliasRows)).map
        Prod.fst).Nodup :=
      List.pairwise_map.2 (pairwise_topMatches.imp ne_of_lt)
    refine List.Nodup.map_on ?_ hranks.of_map
    -- two matches of one movie both have its least rank
    intro m hm m' hm' hmovie
    obtain ⟨-, -, -, -, hleast⟩ := mem_topMatches hm
    obtain ⟨-, -, -, -, hleast'⟩ := mem_topMatches hm'
    have hid : m.2.movieId = m'.2.movieId := hmovie
    rw [hid] at hleast
    exact List.inj_on_of_nodup_map hranks hm hm' (hleast.unique hleast')
  · unfold rankResults
    rw [List.length_map]
    exact hlength _
  · intro movieId rank hrank hout
    unfold rankResults at hout ⊢
    rw [List.length_map]
    refine (kept_or_after hrank).resolve_left ?_
    rintro ⟨m, hm, hmovie, -⟩
    refine hout ?_
    rw [List.map_map]
    exact List.mem_map.2 ⟨m, hm, hmovie⟩
  · intro canonicalRows' aliasRows' hperm
    refine ⟨ranks_topMatches_perm hperm, fun hagree => ?_⟩
    unfold rankResults
    rw [topMatches_perm hagree hperm]

end MovieSearch

namespace MovieSearch

attribute [local instance] UnicodeData.asciiArabic

/-- A movie whose year changed between the two queries is shown as the first of its rows has it. -/
theorem order_shows_through :
    let old : CandidateRow ℚ := ⟨1, "Up".toList, some 1999, "up".toList, 0⟩
    let new : CandidateRow ℚ := ⟨1, "Up".toList, some 2009, "up".toList, 0⟩
    ([old] ++ [new]).Perm ([new] ++ [old]) ∧
      rankResults {} "up".toList none [old] [new] ≠ rankResults {} "up".toList none [new] [old] :=
  ⟨List.Perm.swap _ _ _, by decide +kernel⟩

end MovieSearch
end CineGate
