/-
**What justifies an indexed movie.**

The range of a movie are the recorded messages from its poster up to the next poster of the channel.
An indexed movie should be justified by its range as it is now: no message of it is in conflict, and
the parser, run over it, opens a group at the poster and accepts every attached row.

A message matters to the group by its *role* alone: it ends the group as a poster, or it has an
effect.  A message without an effect might as well be absent, and after the group has been shut no
message matters.

* `role`, `Outline.read`, `outlineOf_replace` — what a group depends on;
* `ArchiveTables.rangeSnapshots`, `ArchiveTables.Justified` — the range and the justification;
* `ArchiveTables.evidenced_revalidateMovie` — revalidation leaves a movie indexed only if it is
  justified;
* `ArchiveTables.Evidenced.frame` — a movie stays justified while its row, its rows and its range
  stay.
-/

import CineGate.ArchiveInvariant

set_option relaxedAutoImplicit false
set_option autoImplicit false

namespace CineGate

/-! ### Roles -/

section Roles

variable [UnicodeData] {parser : ArchiveParser} {poster : PosterCandidate}

/-- What a message is to the group of a poster: another poster, or its effect. -/
def role (poster : PosterCandidate) (m : ArchiveMessage) : Option Effect :=
  if (detectPoster m).isSome then none else some (effect poster m)

/-- The roles of a stream. -/
def roles (poster : PosterCandidate) (ms : List ArchiveMessage) : List (ℕ × Option Effect) :=
  ms.map fun m => (m.messageId, role poster m)

namespace Outline

omit [UnicodeData]

variable (parser) in
/-- An outline after a stream, which a poster ends. -/
def read : Outline → List (ℕ × Option Effect) → Outline
  | o, [] => o
  | o, (_, none) :: _ => o
  | o, (messageId, some eff) :: ms => read (o.feed parser (messageId, eff)) ms

variable (parser) in
/-- The group has been ended by a poster or closed by noise. -/
def isShut (o : Outline) (ms : List (ℕ × Option Effect)) : Bool :=
  (ms.any fun m => m.2.isNone) || parser.maxNoiseMessages < (o.read parser ms).noise

variable {o : Outline} {ms : List (ℕ × Option Effect)}

theorem read_neutral (messageId : ℕ) :
    o.read parser ((messageId, some .neutral) :: ms) = o.read parser ms := by
  rw [read, feed_neutral]

theorem read_of_closed (h : parser.maxNoiseMessages < o.noise) : o.read parser ms = o := by
  induction ms with
  | nil => rfl
  | cons m ms ih =>
      obtain ⟨messageId, _ | eff⟩ := m
      · rfl
      · rw [read, feed_of_closed h, ih]

/-- Nothing is read after the group has been shut. -/
theorem read_append_of_isShut (h : o.isShut parser ms) (ms' : List (ℕ × Option Effect)) :
    o.read parser (ms ++ ms') = o.read parser ms := by
  induction ms generalizing o with
  | nil =>
      exact read_of_closed (of_decide_eq_true h)
  | cons m ms ih =>
      obtain ⟨messageId, _ | eff⟩ := m
      · rfl
      · have h : (o.feed parser (messageId, eff)).isShut parser ms := h
        rw [List.cons_append, read, ih h, read]

/-- Without a poster the stream is read on. -/
theorem read_append (h : (ms.any fun m => m.2.isNone) = false) (ms' : List (ℕ × Option Effect)) :
    o.read parser (ms ++ ms') = (o.read parser ms).read parser ms' := by
  induction ms generalizing o with
  | nil => rfl
  | cons m ms ih =>
      obtain ⟨messageId, _ | eff⟩ := m
      · simp at h
      · have h : (ms.any fun m => m.2.isNone) = false := by simpa using h
        rw [List.cons_append, read, ih h, read]

end Outline

/-- **The outline of a window follows from the roles of the stream.** -/
theorem outlineOf_segment (ms : List ArchiveMessage) :
    parser.outlineOf (poster, segment ms) = ({} : Outline).read parser (roles poster ms) := by
  have hread : ∀ (o : Outline), ((segment ms).map fun m => (m.messageId, effect poster m)).foldl
      (Outline.feed parser) o = o.read parser (roles poster ms) := by
    induction ms with
    | nil => exact fun o => rfl
    | cons m ms ih =>
        intro o
        cases hposter : detectPoster m with
        | some p =>
            rw [segment_cons_of_poster hposter]
            simp [roles, role, hposter, Outline.read]
        | none =>
            rw [segment_cons_of_none hposter, List.map_cons, List.foldl_cons, ih]
            simp [roles, role, hposter, Outline.read]
  exact hread {}

/-- The role of a message that may be absent. -/
def roleOf (poster : PosterCandidate) (m : Option ArchiveMessage) : Option Effect :=
  (m.map (role poster)).getD (some .neutral)

theorem read_roles_toList {o : Outline} {old : Option ArchiveMessage} {messageId : ℕ}
    (hid : ∀ m, old = some m → m.messageId = messageId) (ms : List ArchiveMessage) :
    o.read parser (roles poster (old.toList ++ ms)) =
      o.read parser ((messageId, roleOf poster old) :: roles poster ms) := by
  cases old with
  | none =>
      have hrole : roleOf poster none = some .neutral := rfl
      rw [hrole, Outline.read_neutral]
      rfl
  | some m =>
      rw [← hid m rfl]
      rfl

omit [UnicodeData] in
/-- The message with which a group grows is an entry of it. -/
theorem mem_putEntry_self {entries : List (ℕ × Resolution)} {messageId : ℕ} {quality : Resolution}
    (h : ∀ entry ∈ entries, entry.1 < messageId) :
    (messageId, quality) ∈ putEntry entries messageId quality := by
  unfold putEntry
  split
  · simp
  · next previous hfound =>
      have hmem := List.mem_of_find?_eq_some hfound
      have hquality : previous.2 = quality := by simpa using List.find?_some hfound
      rw [if_pos (h previous hmem)]
      exact List.mem_map.2 ⟨previous, hmem, if_pos hquality⟩

/-- **An accepted message that arrives last is an entry of an open group.** -/
theorem mem_entries_snoc {before : List ArchiveMessage} {new : ArchiveMessage}
    {quality : Resolution} (hopen : ({} : Outline).isShut parser (roles poster before) = false)
    (hlast : ∀ m ∈ before, m.messageId < new.messageId)
    (hrole : role poster new = some (.accepted quality)) :
    (new.messageId, quality) ∈ (parser.outlineOf (poster, segment (before ++ [new]))).entries := by
  simp only [Outline.isShut, Bool.or_eq_false_iff, decide_eq_false_iff_not] at hopen
  obtain ⟨hnoPoster, hnoise⟩ := hopen
  have hroles : roles poster (before ++ [new]) =
      roles poster before ++ [(new.messageId, some (.accepted quality))] := by
    simp [roles, hrole]
  rw [outlineOf_segment, hroles, Outline.read_append hnoPoster, Outline.read, Outline.read,
    Outline.feed, if_neg hnoise]
  refine mem_putEntry_self fun entry hentry => ?_
  rw [← outlineOf_segment] at hentry
  rcases Outline.mem_entries_foldl hentry with hnil | hmem
  · cases hnil
  · obtain ⟨m, hm, hm_eq⟩ := List.mem_map.1 hmem
    have hid : m.messageId = entry.1 := congrArg Prod.fst hm_eq
    rw [← hid]
    exact hlast m (List.takeWhile_subset _ hm)

/-- **A change that keeps the role of a message, or that comes after the group has been shut, keeps
the group.** -/
theorem outlineOf_replace {before later : List ArchiveMessage} {old : Option ArchiveMessage}
    {new : ArchiveMessage} (hid : ∀ m, old = some m → m.messageId = new.messageId)
    (h : ({} : Outline).isShut parser (roles poster before) ∨ role poster new = roleOf poster old) :
    parser.outlineOf (poster, segment (before ++ (old.toList ++ later))) =
      parser.outlineOf (poster, segment (before ++ new :: later)) := by
  rw [outlineOf_segment, outlineOf_segment]
  have hroles : ∀ ms : List ArchiveMessage,
      roles poster (before ++ ms) = roles poster before ++ roles poster ms := by
    intro ms
    simp [roles]
  rw [hroles, hroles]
  by_cases hshut : ({} : Outline).isShut parser (roles poster before)
  · rw [Outline.read_append_of_isShut hshut, Outline.read_append_of_isShut hshut]
  · have hrole := h.resolve_left hshut
    have hopen : ((roles poster before).any fun m => m.2.isNone) = false := by
      simp only [Outline.isShut, Bool.or_eq_true, not_or, Bool.not_eq_true] at hshut
      exact hshut.1
    rw [Outline.read_append hopen, Outline.read_append hopen, read_roles_toList hid, ← hrole]
    rfl

end Roles

namespace ArchiveTables

variable {t t' : ArchiveTables} {movie movie' : Movie} {channelId : ℤ} {messageId : ℕ}

/-! ### Ranges -/

/-- The message lies between the poster of the movie and the next poster of its channel. -/
def inRange (t : ArchiveTables) (movie : Movie) (s : ArchiveMessageSnapshot) : Bool :=
  s.archiveChannelId = movie.archiveChannelId && movie.posterMessageId ≤ s.messageId &&
    (t.nextPoster movie).all (s.messageId < ·)

/-- The snapshots of a movie's range, in message order. -/
def rangeSnapshots (t : ArchiveTables) (movie : Movie) : List ArchiveMessageSnapshot :=
  t.snapshots.rows.filter (t.inRange movie)

/-- The messages of a movie's range. -/
def rangeMessages (t : ArchiveTables) (movie : Movie) : List ArchiveMessage :=
  (t.rangeSnapshots movie).map ArchiveMessageSnapshot.message

/-- The snapshots of the channel are below the largest `BIGINT`, where the range queries end. -/
def BoundedIn (t : ArchiveTables) (channelId : ℤ) : Prop :=
  ∀ s ∈ t.snapshots, s.archiveChannelId = channelId → s.messageId < bigintMax

/-- Every snapshot is below the largest `BIGINT`. -/
def Bounded (t : ArchiveTables) : Prop := ∀ s ∈ t.snapshots, s.messageId < bigintMax

theorem Bounded.boundedIn (h : t.Bounded) : t.BoundedIn channelId := fun s hs _ => h s hs

theorem all_nextPoster : (t.nextPoster movie).all (messageId < ·) ↔
    ∀ other ∈ t.movies, other.archiveChannelId = movie.archiveChannelId →
      movie.posterMessageId < other.posterMessageId → messageId < other.posterMessageId := by
  have hmem : ∀ other, other ∈ t.movies.rows.filter (fun other =>
      other.archiveChannelId = movie.archiveChannelId &&
        movie.posterMessageId < other.posterMessageId) ↔
      other ∈ t.movies ∧ other.archiveChannelId = movie.archiveChannelId ∧
        movie.posterMessageId < other.posterMessageId := by
    intro other
    rw [List.mem_filter, Bool.and_eq_true, decide_eq_true_eq, decide_eq_true_eq]
    rfl
  cases hnext : t.nextPoster movie with
  | none =>
      have hempty := List.map_eq_nil_iff.1 (List.min?_eq_none_iff.1 hnext)
      simp only [Option.all_none, true_iff]
      intro other hother hchannel hlt
      have hother := (hmem other).2 ⟨hother, hchannel, hlt⟩
      rw [hempty] at hother
      cases hother
  | some next =>
      obtain ⟨hnext, hle⟩ := List.min?_eq_some_iff.1 hnext
      obtain ⟨other₀, hother₀, rfl⟩ := List.mem_map.1 hnext
      obtain ⟨hmem₀, hchannel₀, hlt₀⟩ := (hmem other₀).1 hother₀
      simp only [Option.all_some, decide_eq_true_eq]
      constructor
      · intro hid other hother hchannel hlt
        exact hid.trans_le
          (hle _ (List.mem_map_of_mem ((hmem other).2 ⟨hother, hchannel, hlt⟩)))
      · exact fun h => h other₀ hmem₀ hchannel₀ hlt₀

/-- The message would lie in the range of the movie. -/
def Covers (t : ArchiveTables) (movie : Movie) (channelId : ℤ) (messageId : ℕ) : Prop :=
  channelId = movie.archiveChannelId ∧ movie.posterMessageId ≤ messageId ∧
    ∀ other ∈ t.movies, other.archiveChannelId = movie.archiveChannelId →
      movie.posterMessageId < other.posterMessageId → messageId < other.posterMessageId

theorem inRange_iff {s : ArchiveMessageSnapshot} :
    t.inRange movie s ↔ t.Covers movie s.archiveChannelId s.messageId := by
  rw [inRange, Bool.and_eq_true, Bool.and_eq_true, decide_eq_true_eq, decide_eq_true_eq,
    all_nextPoster, and_assoc, Covers]

theorem mem_rangeSnapshots {s : ArchiveMessageSnapshot} :
    s ∈ t.rangeSnapshots movie ↔ s ∈ t.snapshots ∧ t.inRange movie s := List.mem_filter

/-- Only the place of the movie matters, and the posters of its channel. -/
theorem covers_iff_of_samePlaces (h : SamePlaces t t')
    (hplace : moviePlace movie' = moviePlace movie) :
    t'.Covers movie' channelId messageId ↔ t.Covers movie channelId messageId := by
  have hchannel : movie'.archiveChannelId = movie.archiveChannelId := congrArg Prod.fst hplace
  have hposter : movie'.posterMessageId = movie.posterMessageId := congrArg Prod.snd hplace
  rw [Covers, Covers, hchannel, hposter]
  refine and_congr_right fun _ => and_congr_right fun _ => ?_
  constructor
  · intro hs other hother hsame hlt
    obtain ⟨other', hother', hchannel', hposter'⟩ := h.find?_movie (KeyedTable.find?_of_mem hother)
    rw [← hposter'] at hlt ⊢
    exact hs other' (KeyedTable.mem_of_find? hother') (hchannel'.trans hsame) hlt
  · intro hs other' hother' hsame hlt
    obtain ⟨other, hother, -, hchannel', hposter'⟩ := h.movie_origin hother'
    rw [← hposter'] at hlt ⊢
    exact hs other hother (hchannel'.trans hsame) hlt

theorem inRange_eq_of_samePlaces (h : SamePlaces t t')
    (hplace : moviePlace movie' = moviePlace movie) :
    t'.inRange movie' = t.inRange movie := by
  funext s
  rw [Bool.eq_iff_iff, inRange_iff, inRange_iff, covers_iff_of_samePlaces h hplace]

/-- The range queries reach the whole range. -/
theorem snapshotsUpTo_rangeStop (hbound : t.BoundedIn movie.archiveChannelId) :
    t.snapshotsUpTo movie (t.rangeStop movie) = t.rangeSnapshots movie := by
  refine List.filter_congr fun s hs => ?_
  rw [inRange, rangeStop]
  by_cases hchannel : s.archiveChannelId = movie.archiveChannelId
  · have hlt : s.messageId < bigintMax := hbound s hs hchannel
    cases t.nextPoster movie with
    | none => simp [hlt]
    | some next => simp
  · simp [hchannel]

/-- Without a conflict the whole range is parsed. -/
theorem movieMessages_of_unconflicted (hbound : t.BoundedIn movie.archiveChannelId)
    (h : ∀ s ∈ t.rangeSnapshots movie, s.conflicted = false) :
    t.movieMessages movie none = t.rangeMessages movie := by
  have hnone : t.firstConflict movie = none := by
    rw [firstConflict, snapshotsUpTo_rangeStop hbound, List.min?_eq_none_iff, List.map_eq_nil_iff,
      List.filter_eq_nil_iff]
    intro s hs
    simp [h s hs]
  rw [movieMessages_eq, rangeMessages, rangeSnapshots]
  congr 1
  refine List.filter_congr fun s hs => ?_
  rw [inWindow, inRange, hnone, rangeStop]
  by_cases hchannel : s.archiveChannelId = movie.archiveChannelId
  · have hlt : s.messageId < bigintMax := hbound s hs hchannel
    cases t.nextPoster movie with
    | none => simp [hlt]
    | some next => simp [hlt]
  · simp [hchannel]

theorem ascending_rangeMessages : AscendingFrom 0 (t.rangeMessages movie) :=
  ascending_filter fun _ hs => (inRange_iff.1 hs).1

/-- The poster of a movie lies in no other range. -/
theorem Covers.eq_of_poster (h : t.Covers movie movie'.archiveChannelId movie'.posterMessageId)
    (hkeys : t.UniqueKeys) (hmovie : movie ∈ t.movies) (hmovie' : movie' ∈ t.movies) :
    movie = movie' := by
  obtain ⟨hchannel, hle, hnext⟩ := h
  rcases hle.lt_or_eq with hlt | heq
  · exact absurd (hnext movie' hmovie' hchannel hlt) (lt_irrefl _)
  · exact hkeys.poster movie hmovie movie' hmovie' hchannel.symm heq

/-- A message that is no poster lies in the range of the movie before it. -/
theorem Covers.movieBefore?_eq (h : t.Covers movie channelId messageId) (hkeys : t.UniqueKeys)
    (hmovie : movie ∈ t.movies) (hposter : t.posterMovie? channelId messageId = none) :
    t.movieBefore? channelId messageId = some movie := by
  obtain ⟨rfl, hle, hnext⟩ := h
  have hlt : movie.posterMessageId < messageId :=
    lt_of_le_of_ne hle (posterMovie?_eq_none hposter movie hmovie rfl)
  cases hbefore : t.movieBefore? movie.archiveChannelId messageId with
  | none => exact absurd hlt (not_lt.2 (movieBefore?_eq_none hbefore movie hmovie rfl))
  | some previous =>
      obtain ⟨hprevious, hchannel, hprevious_lt, hmax⟩ := movieBefore?_eq_some hbefore
      have hle' : movie.posterMessageId ≤ previous.posterMessageId := hmax movie hmovie rfl hlt
      rcases hle'.lt_or_eq with hlt' | heq
      · exact absurd (hnext previous hprevious hchannel hlt') (not_lt.2 hprevious_lt.le)
      · rw [hkeys.poster movie hmovie previous hprevious hchannel.symm heq]

/-! ### Changes of one message -/

/-- The snapshots differ in one message at most. -/
def ChangesOnly (t t' : ArchiveTables) (channelId : ℤ) (messageId : ℕ) : Prop :=
  ∀ p : ArchiveMessageSnapshot → Bool, (∀ s, s.key = toLex (channelId, messageId) → p s = false) →
    t'.snapshots.rows.filter p = t.snapshots.rows.filter p

theorem changesOnly_updateSnapshot {f : ArchiveMessageSnapshot → ArchiveMessageSnapshot}
    {hf : ∀ s, (f s).key = s.key} :
    ChangesOnly t (t.updateSnapshot channelId messageId f hf) channelId messageId := by
  intro p hp
  have hrows : (t.updateSnapshot channelId messageId f hf).snapshots.rows = t.snapshots.rows.map
      fun s => if s.key = toLex (channelId, messageId) then f s else s := rfl
  rw [hrows]
  induction t.snapshots.rows with
  | nil => rfl
  | cons s ss ih =>
      rw [List.map_cons, List.filter_cons, List.filter_cons, ih]
      by_cases hkey : s.key = toLex (channelId, messageId)
      · rw [if_pos hkey, hp s hkey, hp (f s) ((hf s).trans hkey)]
        rfl
      · rw [if_neg hkey]

theorem changesOnly_recordMessage {message : ArchiveMessage} :
    ChangesOnly t (t.recordMessage channelId message) channelId message.messageId := by
  unfold recordMessage
  split
  · exact fun p hp => KeyedTable.filter_insertRow_of_neg (hp _ rfl)
  · exact changesOnly_updateSnapshot

/-- A range that the changed message does not lie in stays. -/
theorem ChangesOnly.rangeSnapshots_eq (h : ChangesOnly t t' channelId messageId)
    (hrange : t'.inRange movie = t.inRange movie) (hout : ¬ t.Covers movie channelId messageId) :
    t'.rangeSnapshots movie = t.rangeSnapshots movie := by
  rw [rangeSnapshots, hrange]
  refine h _ fun s hs => ?_
  obtain ⟨rfl, rfl⟩ : s.archiveChannelId = channelId ∧ s.messageId = messageId :=
    Prod.ext_iff.1 (toLex.injective hs)
  rw [← Bool.not_eq_true, inRange_iff]
  exact hout

/-- The messages of a movie's range between its poster and a message. -/
def messagesBefore (t : ArchiveTables) (movie : Movie) (messageId : ℕ) : List ArchiveMessage :=
  ((t.rangeSnapshots movie).filter fun s =>
    movie.posterMessageId < s.messageId && s.messageId < messageId).map
      ArchiveMessageSnapshot.message

/-- The messages of a movie's range after a message. -/
def messagesAfter (t : ArchiveTables) (movie : Movie) (messageId : ℕ) : List ArchiveMessage :=
  ((t.rangeSnapshots movie).filter fun s => messageId < s.messageId).map
    ArchiveMessageSnapshot.message

/-- A recorded message. -/
def messageAt (t : ArchiveTables) (channelId : ℤ) (messageId : ℕ) : Option ArchiveMessage :=
  (t.snapshot? channelId messageId).map ArchiveMessageSnapshot.message

/-- In one channel the keys compare as the messages do. -/
theorem key_lt_iff {s : ArchiveMessageSnapshot} (hchannel : s.archiveChannelId = channelId) :
    (s.key < toLex (channelId, messageId) ↔ s.messageId < messageId) ∧
      (toLex (channelId, messageId) < s.key ↔ messageId < s.messageId) := by
  subst hchannel
  rw [ArchiveMessageSnapshot.key, Prod.Lex.toLex_lt_toLex, Prod.Lex.toLex_lt_toLex]
  simp

/-- **The range of a movie splits at a message**: its poster, what lies before the message, the
message if it is recorded, what lies after it. -/
theorem rangeMessages_eq {m₀ : ArchiveMessage} {rest : List ArchiveMessage}
    (hopens : t.rangeMessages movie = m₀ :: rest) (hposter : m₀.messageId = movie.posterMessageId)
    (hcovers : t.Covers movie channelId messageId) (hlt : movie.posterMessageId < messageId) :
    t.rangeMessages movie = m₀ :: (t.messagesBefore movie messageId ++
      ((t.messageAt channelId messageId).toList ++ t.messagesAfter movie messageId)) := by
  have hchannel : channelId = movie.archiveChannelId := hcovers.1
  obtain ⟨s₀, ss, hrange, hs₀, hss⟩ : ∃ s₀ ss, t.rangeSnapshots movie = s₀ :: ss ∧
      s₀.message = m₀ ∧ ss.map ArchiveMessageSnapshot.message = rest :=
    List.map_eq_cons_iff.1 hopens
  have hs₀_id : s₀.messageId = movie.posterMessageId := by rw [← hposter, ← hs₀]; rfl
  have hmem : ∀ s ∈ s₀ :: ss, s.archiveChannelId = channelId := fun s hs => by
    rw [hchannel]
    exact (inRange_iff.1 (mem_rangeSnapshots.1 (hrange ▸ hs)).2).1
  have hlater : ∀ s ∈ ss, movie.posterMessageId < s.messageId := by
    have hasc : AscendingFrom 0 (m₀ :: rest) := hopens ▸ ascending_rangeMessages
    have hasc := hasc.tail.2
    intro s hs
    rw [AscendingFrom, List.pairwise_cons, hposter, ← hss] at hasc
    exact hasc.1 _ (List.mem_map_of_mem (List.mem_map_of_mem hs))
  have hsplit := KeyedTable.filter_split t.snapshots.ordered (t.inRange movie)
    (toLex (channelId, messageId))
  -- below the message: the poster and what lies before the message
  have hbelow : t.snapshots.rows.filter (fun s => t.inRange movie s &&
      decide (s.key < toLex (channelId, messageId))) =
        s₀ :: ss.filter fun s =>
          movie.posterMessageId < s.messageId && s.messageId < messageId := by
    have hfilter : t.snapshots.rows.filter (fun s => t.inRange movie s &&
        decide (s.key < toLex (channelId, messageId))) =
          (s₀ :: ss).filter fun s => s.key < toLex (channelId, messageId) := by
      rw [← hrange, rangeSnapshots, List.filter_filter]
      exact List.filter_congr fun s _ => Bool.and_comm _ _
    have hs₀_lt : s₀.key < toLex (channelId, messageId) :=
      (key_lt_iff (hmem s₀ List.mem_cons_self)).1.2 (hs₀_id ▸ hlt)
    rw [hfilter, List.filter_cons_of_pos (by simpa using hs₀_lt)]
    congr 1
    refine List.filter_congr fun s hs => ?_
    rw [decide_eq_true (hlater s hs), Bool.true_and]
    exact decide_eq_decide.2 (key_lt_iff (hmem s (List.mem_cons_of_mem _ hs))).1
  have hat : t.snapshots.rows.filter (fun s => t.inRange movie s &&
      decide (s.key = toLex (channelId, messageId))) =
        (t.snapshot? channelId messageId).toList := by
    refine KeyedTable.filter_at t.snapshots fun s hs => ?_
    obtain ⟨rfl, rfl⟩ : s.archiveChannelId = channelId ∧ s.messageId = messageId :=
      Prod.ext_iff.1 (toLex.injective hs)
    exact inRange_iff.2 hcovers
  have habove : t.snapshots.rows.filter (fun s => t.inRange movie s &&
      decide (toLex (channelId, messageId) < s.key)) =
        (t.rangeSnapshots movie).filter fun s => messageId < s.messageId := by
    rw [rangeSnapshots, List.filter_filter]
    refine List.filter_congr fun s _ => ?_
    by_cases hs : t.inRange movie s
    · rw [hs, Bool.true_and, Bool.and_true]
      exact decide_eq_decide.2 (key_lt_iff ((inRange_iff.1 hs).1.trans hchannel.symm)).2
    · simp [hs]
  have hbefore : t.messagesBefore movie messageId = (ss.filter fun s =>
      movie.posterMessageId < s.messageId && s.messageId < messageId).map
        ArchiveMessageSnapshot.message := by
    rw [messagesBefore, hrange, List.filter_cons_of_neg (by simp [hs₀_id])]
  rw [hbelow, hat, habove] at hsplit
  have hmessages := congrArg (List.map ArchiveMessageSnapshot.message) hsplit
  rw [List.map_append, List.map_cons, List.map_append, hs₀, List.cons_append] at hmessages
  rw [hbefore, messageAt, messagesAfter]
  refine hmessages.trans ?_
  congr 3
  cases t.snapshot? channelId messageId <;> rfl

/-- The range of a movie begins with the message of its poster. -/
theorem rangeMessages_of_messageAt {m₀ : ArchiveMessage}
    (h : t.messageAt movie.archiveChannelId movie.posterMessageId = some m₀) :
    m₀.messageId = movie.posterMessageId ∧ ∃ rest, t.rangeMessages movie = m₀ :: rest := by
  obtain ⟨s₀, hs₀, rfl⟩ := Option.map_eq_some_iff.1 h
  have hkey : s₀.key = toLex (movie.archiveChannelId, movie.posterMessageId) :=
    KeyedTable.key_of_find? hs₀
  have hid : s₀.messageId = movie.posterMessageId := (Prod.ext_iff.1 (toLex.injective hkey)).2
  refine ⟨hid, ?_⟩
  have hsplit := KeyedTable.filter_split t.snapshots.ordered (t.inRange movie)
    (toLex (movie.archiveChannelId, movie.posterMessageId))
  have hbelow : t.snapshots.rows.filter (fun s => t.inRange movie s &&
      decide (s.key < toLex (movie.archiveChannelId, movie.posterMessageId))) = [] := by
    refine List.filter_eq_nil_iff.2 fun s _ hs => ?_
    simp only [Bool.and_eq_true, decide_eq_true_eq] at hs
    obtain ⟨hchannel, hle, -⟩ := inRange_iff.1 hs.1
    exact absurd ((key_lt_iff hchannel).1.1 hs.2) (not_lt.2 hle)
  have hat : t.snapshots.rows.filter (fun s => t.inRange movie s &&
      decide (s.key = toLex (movie.archiveChannelId, movie.posterMessageId))) =
        (t.snapshot? movie.archiveChannelId movie.posterMessageId).toList := by
    refine KeyedTable.filter_at t.snapshots fun s hs => inRange_iff.2 ?_
    obtain ⟨hchannel, hposter⟩ : s.archiveChannelId = movie.archiveChannelId ∧
        s.messageId = movie.posterMessageId := Prod.ext_iff.1 (toLex.injective hs)
    rw [hchannel, hposter]
    exact ⟨rfl, le_rfl, fun _ _ _ hlt => hlt⟩
  rw [hbelow, hat, hs₀] at hsplit
  rw [rangeMessages, rangeSnapshots, hsplit]
  exact ⟨_, rfl⟩

/-- The messages up to a point are the first ones of the range. -/
theorem movieMessages_through (hbound : t.BoundedIn movie.archiveChannelId)
    (h : ∀ s ∈ t.rangeSnapshots movie, s.conflicted = false) :
    t.movieMessages movie (some messageId) =
      (t.rangeMessages movie).filter fun m => m.messageId ≤ messageId := by
  have hwhole : t.movieMessages movie none = t.rangeMessages movie :=
    movieMessages_of_unconflicted hbound h
  rw [← hwhole, movieMessages, movieMessages, List.filter_map, List.filter_filter]
  congr 1
  refine List.filter_congr fun s _ => ?_
  have hid : s.message.messageId = s.messageId := rfl
  simp [hid]

/-- What lies before and after the changed message stays. -/
theorem ChangesOnly.messagesBefore_eq (h : ChangesOnly t t' channelId messageId)
    (hrange : t'.inRange movie = t.inRange movie) :
    t'.messagesBefore movie messageId = t.messagesBefore movie messageId ∧
      t'.messagesAfter movie messageId = t.messagesAfter movie messageId := by
  rw [messagesBefore, messagesAfter, messagesBefore, messagesAfter, rangeSnapshots, rangeSnapshots,
    hrange, List.filter_filter, List.filter_filter, List.filter_filter, List.filter_filter]
  have hid : ∀ s : ArchiveMessageSnapshot, s.key = toLex (channelId, messageId) →
      s.messageId = messageId := fun s hs => (Prod.ext_iff.1 (toLex.injective hs)).2
  constructor
  · rw [h _ fun s hs => by simp [hid s hs]]
  · rw [h _ fun s hs => by simp [hid s hs]]

/-! ### Justification -/

section

variable [UnicodeData] (parser : ArchiveParser)

/-- The movie is justified by the snapshots of its range. -/
structure Justified (t : ArchiveTables) (movie : Movie) : Prop where
  parserConfidence : 0 < movie.parserConfidence
  attached : ∃ row ∈ t.qualities, row.movieId = movie.id
  unconflicted : ∀ s ∈ t.rangeSnapshots movie, s.conflicted = false
  accepted : ∃ groups, parser.parse (t.rangeMessages movie) = .ok groups ∧
    ∃ group ∈ groups, group.posterMessageId = movie.posterMessageId ∧
      ∀ row ∈ t.qualities, row.movieId = movie.id →
        ∃ item ∈ group.qualities,
          item.messageId = row.archiveMessageId ∧ item.quality = row.quality

/-- The same by the outline of the group that opens the range. -/
structure Evidenced (t : ArchiveTables) (movie : Movie) : Prop where
  parserConfidence : 0 < movie.parserConfidence
  attached : ∃ row ∈ t.qualities, row.movieId = movie.id
  unconflicted : ∀ s ∈ t.rangeSnapshots movie, s.conflicted = false
  accepted : ∃ poster rest, OpensWith movie (t.rangeMessages movie) poster rest ∧
    ∀ row ∈ t.qualities, row.movieId = movie.id →
      (row.archiveMessageId, row.quality) ∈ (parser.outlineOf (poster, segment rest)).entries

variable {parser}

theorem Evidenced.justified (h : t.Evidenced parser movie) : t.Justified parser movie := by
  obtain ⟨poster, rest, hopens, hrows⟩ := h.accepted
  refine ⟨h.parserConfidence, h.attached, h.unconflicted, _,
    ArchiveParser.parse_eq ascending_rangeMessages, parser.groupOf none (poster, segment rest),
    ?_, ?_, fun row hrow hid => ArchiveParser.mem_groupOf_iff.2 (hrows row hrow hid)⟩
  · rw [hopens.movieWindows]
    exact List.mem_map_of_mem List.mem_cons_self
  · rw [posterMessageId_groupOf]
    exact hopens.posterMessageId

/-- A movie keeps its evidence while it, its rows and its range stay. -/
theorem Evidenced.frame (h : t.Evidenced parser movie)
    (hrows : ∀ row, row.movieId = movie.id → (row ∈ t'.qualities ↔ row ∈ t.qualities))
    (hrange : t'.rangeSnapshots movie = t.rangeSnapshots movie) : t'.Evidenced parser movie := by
  have hmessages : t'.rangeMessages movie = t.rangeMessages movie := by
    rw [rangeMessages, hrange, rangeMessages]
  obtain ⟨row, hrow, hid⟩ := h.attached
  obtain ⟨poster, rest, hopens, haccepted⟩ := h.accepted
  refine ⟨h.parserConfidence, ⟨row, (hrows row hid).2 hrow, hid⟩, ?_, poster, rest, ?_, ?_⟩
  · rw [hrange]
    exact h.unconflicted
  · rw [hmessages]
    exact hopens
  · exact fun row hrow hid => haccepted row ((hrows row hid).1 hrow) hid

/-- An accepted quality of an unconflicted range is an entry of its outline. -/
theorem exists_opensWith_of_mem_acceptedQualities {item : ParsedQuality}
    (hmessages : t.movieMessages movie none = t.rangeMessages movie)
    (h : item ∈ t.acceptedQualities parser movie) :
    ∃ poster rest, OpensWith movie (t.rangeMessages movie) poster rest := by
  unfold acceptedQualities at h
  cases hgroup : t.parseMovieGroup parser movie none with
  | none => simp [hgroup] at h
  | some group =>
      obtain ⟨-, poster, rest, hopens, -⟩ := parseMovieGroup_eq_some.1 hgroup
      rw [hmessages] at hopens
      exact ⟨poster, rest, hopens⟩

theorem mem_entries_of_mem_acceptedQualities {item : ParsedQuality}
    (hmessages : t.movieMessages movie none = t.rangeMessages movie)
    (h : item ∈ t.acceptedQualities parser movie) {poster : PosterCandidate}
    {rest : List ArchiveMessage} (hopens : OpensWith movie (t.rangeMessages movie) poster rest) :
    (item.messageId, item.quality) ∈ (parser.outlineOf (poster, segment rest)).entries := by
  unfold acceptedQualities at h
  cases hgroup : t.parseMovieGroup parser movie none with
  | none => simp [hgroup] at h
  | some group =>
      obtain ⟨-, poster', rest', hopens', rfl⟩ := parseMovieGroup_eq_some.1 hgroup
      rw [hmessages] at hopens'
      obtain ⟨m, hm, -, hposter⟩ := hopens
      obtain ⟨m', hm', -, hposter'⟩ := hopens'
      obtain ⟨rfl, rfl⟩ := List.cons.inj (hm.symm.trans hm')
      obtain rfl : poster = poster' := Option.some.inj (hposter.symm.trans hposter')
      rw [hgroup] at h
      exact ArchiveParser.mem_groupOf_iff.1 ⟨item, h, rfl, rfl⟩

omit [UnicodeData] in
/-- A row that keeps its confidence in a revalidation is accepted. -/
theorem accepted_of_revalidateRow {accepted : List ParsedQuality} {row : MovieQuality}
    (h : (revalidateRow accepted row).parserConfidence ≠ 0) :
    ∃ item ∈ accepted, item.messageId = row.archiveMessageId ∧ item.quality = row.quality := by
  unfold revalidateRow at h
  split at h
  · exact absurd rfl h
  · next item hfound =>
      split at h
      · next hquality =>
          have hid : item.messageId = row.archiveMessageId := by simpa using List.find?_some hfound
          exact ⟨item, List.mem_of_find?_eq_some hfound, hid, hquality⟩
      · exact absurd rfl h

omit [UnicodeData] in
/-- What an indexed movie has after `_refresh_movie_status`. -/
theorem freshStatus_eq_indexed (h : t.freshStatus movie = .indexed) :
    0 < movie.parserConfidence ∧ (∀ row ∈ t.qualities, row.movieId = movie.id →
        row.parserConfidence ≠ 0) ∧ (∃ row ∈ t.qualities, row.movieId = movie.id) ∧
      ∀ s ∈ t.snapshotsUpTo movie (t.rangeStop movie), s.conflicted = false := by
  unfold freshStatus at h
  dsimp only at h
  split at h
  · cases h
  · next hsafe =>
      simp only [Bool.or_eq_true, decide_eq_true_eq, List.any_eq_true, not_or, not_exists,
        not_and, Bool.not_eq_true] at hsafe
      obtain ⟨⟨hconfidence, hrows⟩, hconflict⟩ := hsafe
      split at h
      · next hsome =>
          refine ⟨Nat.pos_of_ne_zero hconfidence, fun row hrow hid => ?_, ?_, hconflict⟩
          · exact hrows row (List.mem_filter.2 ⟨hrow, by simpa using hid⟩)
          · have hne : t.movieQualities movie.id ≠ [] := by simpa using hsome
            obtain ⟨row, hrow⟩ := List.exists_mem_of_ne_nil _ hne
            obtain ⟨hrow, hid⟩ := List.mem_filter.1 hrow
            exact ⟨row, hrow, by simpa using hid⟩
      · cases h

/-- **Revalidation leaves a movie indexed only with evidence.** -/
theorem evidenced_revalidateMovie (hbound : t.Bounded) {stored : Movie}
    (hstored : t.movies.find? movie.id = some stored)
    (hplace : moviePlace stored = moviePlace movie)
    (hconfidence : stored.parserConfidence = movie.parserConfidence)
    (hmovie' : (t.revalidateMovie parser movie).1.movies.find? movie.id = some movie')
    (hindexed : movie'.status = .indexed) :
    (t.revalidateMovie parser movie).1.Evidenced parser movie' := by
  have hfind : (t.revalidateMovie parser movie).1.movies.find? movie.id = some { stored with
      status := (t.revalidateAttachedQualities parser movie).freshStatus movie } :=
    find?_updateMovie_self hstored
  obtain rfl := Option.some.inj (hfind.symm.trans hmovie')
  obtain ⟨hpos, hrows, hattached, hconflict⟩ := freshStatus_eq_indexed hindexed
  -- the range is the one of before, and free of conflicts
  have hsame : SamePlaces t (t.revalidateMovie parser movie).1 := samePlaces_revalidateMovie
  have hrange : (t.revalidateMovie parser movie).1.rangeSnapshots { stored with
      status := (t.revalidateAttachedQualities parser movie).freshStatus movie } =
        t.rangeSnapshots movie := by
    have hplace' : moviePlace { stored with
        status := (t.revalidateAttachedQualities parser movie).freshStatus movie } =
          moviePlace movie := hplace
    rw [rangeSnapshots, inRange_eq_of_samePlaces hsame hplace', snapshots_revalidateMovie,
      rangeSnapshots]
  have hunconflicted : ∀ s ∈ t.rangeSnapshots movie, s.conflicted = false := by
    rw [← snapshotsUpTo_rangeStop hbound.boundedIn]
    exact hconflict
  have hmessages := movieMessages_of_unconflicted hbound.boundedIn hunconflicted
  -- every row of the movie is accepted
  have haccepted : ∀ row' ∈ (t.revalidateAttachedQualities parser movie).qualities,
      row'.movieId = movie.id → ∃ item ∈ t.acceptedQualities parser movie,
        item.messageId = row'.archiveMessageId ∧ item.quality = row'.quality := by
    intro row' hrow' hid
    have hconfident := hrows row' hrow' hid
    obtain ⟨row, hrow, rfl⟩ := mem_qualities_revalidateMovie hrow'
    split at hid
    · next hmovie =>
        rw [if_pos hmovie] at hconfident
        rw [if_pos hmovie]
        obtain ⟨-, hrowPlace, hquality⟩ :=
          revalidateRow_frame (t.acceptedQualities parser movie) row
        obtain ⟨item, hitem, hitem_id, hitem_quality⟩ := accepted_of_revalidateRow hconfident
        have hmessage : (revalidateRow (t.acceptedQualities parser movie) row).archiveMessageId =
            row.archiveMessageId := congrArg (fun p => p.2.2) hrowPlace
        exact ⟨item, hitem, hitem_id.trans hmessage.symm, hitem_quality.trans hquality.symm⟩
    · next hmovie => exact absurd hid hmovie
  obtain ⟨row₀, hrow₀, hid₀⟩ := hattached
  obtain ⟨item₀, hitem₀, -⟩ := haccepted row₀ hrow₀ hid₀
  obtain ⟨poster, rest, hopens⟩ := exists_opensWith_of_mem_acceptedQualities hmessages hitem₀
  have hid : stored.id = movie.id := KeyedTable.key_of_find? hstored
  refine ⟨hconfidence ▸ hpos, ⟨row₀, hrow₀, hid₀.trans hid.symm⟩, ?_, poster, rest, ?_, ?_⟩
  · rw [hrange]
    exact hunconflicted
  · rw [rangeMessages, hrange]
    obtain ⟨m, hm, hm_id, hposter⟩ := hopens
    exact ⟨m, hm, hm_id.trans (congrArg Prod.snd hplace).symm, hposter⟩
  · intro row hrow hrow_id
    obtain ⟨item, hitem, hitem_id, hitem_quality⟩ := haccepted row hrow (hrow_id.trans hid)
    rw [← hitem_id, ← hitem_quality]
    exact mem_entries_of_mem_acceptedQualities hmessages hitem hopens

end

end ArchiveTables

end CineGate
