/-
**Replaying edited captions, message by message.**

The captions of a movie's messages may have been edited without the bot seeing it, so that the
resolutions they show are permuted or moved to other messages.  A pass records each message as it is
now and relabels the rows one after the other; a row whose resolution another row still has keeps
its old one.  Half-way through a pass the parser reads the edited messages up to the one that is
replayed, and that is enough to accept it.

* `ArchiveTables.Reassigned` — the edits, and that the parser accepts them for the movie's group;
* `ArchiveTables.Repaired` — the movie is indexed, and every row is labelled as its caption shows;
* `ArchiveTables.Stage` — the tables in the middle of a pass;
* `ArchiveTables.Stage.posterStep`, `ArchiveTables.Stage.editStep` — what replaying a message does;
* `ArchiveTables.Stage.replayEdit` — **one edit is one step of `Relabelling.relabel`**;
* `ArchiveTables.EditStep.repaired_iff` — when the last edit of a pass leaves the movie repaired.
-/

import CineGate.ArchiveReplays
import CineGate.IngestedStream
import CineGate.Relabelling

set_option relaxedAutoImplicit false
set_option autoImplicit false

namespace CineGate

namespace ArchiveTables

/-! ### The edits -/

/-- The tables with the messages recorded as they are now. -/
def withContents (t : ArchiveTables) (channelId : ℤ) (messages : List ArchiveMessage) :
    ArchiveTables :=
  messages.foldl (fun t m => t.recordMessage channelId m) t

/-- The resolution that the current caption of a message shows. -/
def captionQuality [UnicodeData] (messages : List ArchiveMessage) (messageId : ℕ) :
    Option Resolution :=
  (messages.find? fun m => m.messageId = messageId).bind fun m =>
    extractQuality (boundedCaption m.caption)

/-- The resolution of the row that is attached to a message. -/
def label (t : ArchiveTables) (channelId : ℤ) (messageId : ℕ) : Option Resolution :=
  (t.attachedQuality? channelId messageId).map MovieQuality.quality

section

variable [UnicodeData] (parser : ArchiveParser)

/-- The poster of the movie and its attached messages as Telegram shows them now, in order: none is
older than it is recorded, and the parser accepts the attached ones for the group of the movie. -/
structure Reassigned (t : ArchiveTables) (movie : Movie) (poster : ArchiveMessage)
    (edits : List ArchiveMessage) : Prop where
  posterId : poster.messageId = movie.posterMessageId
  ascending : edits.Pairwise fun m m' => m.messageId < m'.messageId
  attached : ∀ id, id ∈ edits.map ArchiveMessage.messageId ↔
    ∃ row ∈ t.movieQualities movie.id, row.archiveMessageId = id
  current : ∀ m ∈ poster :: edits, t.IsCurrent movie.archiveChannelId m
  accepted : ∃ group, (parser.iterGroups (some 32)
      ((t.withContents movie.archiveChannelId (poster :: edits)).movieMessages movie none)).next =
        .ok (some group) ∧ group.posterMessageId = movie.posterMessageId ∧
    ∀ m ∈ edits, ∃ item ∈ group.qualities, item.messageId = m.messageId

/-- The movie is indexed, and every attached row is labelled as its current caption shows. -/
structure Repaired (t : ArchiveTables) (movie : Movie) (edits : List ArchiveMessage) : Prop where
  indexed : (t.movies.find? movie.id).map Movie.status = some .indexed
  labelled : ∀ row ∈ t.movieQualities movie.id,
    captionQuality edits row.archiveMessageId = some row.quality

end

/-! ### Recorded contents -/

section

variable {t : ArchiveTables} {channelId : ℤ} {messages : List ArchiveMessage}

theorem movies_withContents : (t.withContents channelId messages).movies = t.movies := by
  induction messages generalizing t with
  | nil => rfl
  | cons m messages ih =>
      have hrest : ((t.recordMessage channelId m).withContents channelId messages).movies = _ := ih
      exact hrest.trans movies_recordMessage

theorem samePlaces_withContents : SamePlaces t (t.withContents channelId messages) := by
  induction messages generalizing t with
  | nil => exact .refl
  | cons m messages ih => exact samePlaces_recordMessage.trans ih

theorem snapshot?_withContents_of_notMem {id : ℕ}
    (h : id ∉ messages.map ArchiveMessage.messageId) :
    (t.withContents channelId messages).snapshot? channelId id = t.snapshot? channelId id := by
  induction messages generalizing t with
  | nil => rfl
  | cons m messages ih =>
      rw [List.map_cons, List.mem_cons, not_or] at h
      have hrest :
          ((t.recordMessage channelId m).withContents channelId messages).snapshot? channelId
            id = _ := ih h.2
      refine hrest.trans (snapshot?_replayed rfl h.1)

/-- A recorded message is read as it is. -/
theorem view_recordedSnapshot (message : ArchiveMessage) :
    ((t.recordedSnapshot channelId message).message,
      (t.recordedSnapshot channelId message).conflicted) = (message, false) := rfl

theorem snapshot?_withContents {m : ArchiveMessage} (hm : m ∈ messages)
    (hascending : messages.Pairwise fun m m' => m.messageId < m'.messageId) :
    ((t.withContents channelId messages).snapshot? channelId m.messageId).map
      (fun s => (s.message, s.conflicted)) = some (m, false) := by
  induction messages generalizing t with
  | nil => cases hm
  | cons m' messages ih =>
      obtain ⟨hlt, hascending⟩ := List.pairwise_cons.1 hascending
      rcases List.mem_cons.1 hm with rfl | hm
      · have hnot : m.messageId ∉ messages.map ArchiveMessage.messageId := by
          intro hmem
          obtain ⟨m', hm', hid⟩ := List.mem_map.1 hmem
          exact absurd (hlt m' hm') (by rw [hid]; exact lt_irrefl _)
        have hrest : ((t.recordMessage channelId m).withContents channelId messages).snapshot?
            channelId m.messageId = _ := snapshot?_withContents_of_notMem hnot
        have hself : (t.recordMessage channelId m).snapshot? channelId m.messageId = _ :=
          snapshot?_replayed_self rfl
        rw [withContents, List.foldl_cons]
        exact (congrArg _ (hrest.trans hself)).trans (congrArg some (view_recordedSnapshot m))
      · exact ih hm hascending

variable {movie : Movie}

theorem movieMessages_some {bound : ℕ} : t.movieMessages movie (some bound) =
    (t.movieMessages movie none).filter fun m => m.messageId ≤ bound := by
  rw [movieMessages, movieMessages, List.filter_map]
  congr 1
  rw [List.filter_filter]
  exact List.filter_congr fun s _ => (Bool.and_true _).symm

theorem PostersFit.withContents (ht : t.PostersFit) :
    (t.withContents channelId messages).PostersFit := by
  intro other hother
  rw [movies_withContents] at hother
  exact ht other hother

/-- A message that is read from the recorded contents is the one that was recorded. -/
theorem eq_of_mem_withContents (ht : t.PostersFit)
    (hordered : messages.Pairwise fun m m' => m.messageId < m'.messageId) {m m' : ArchiveMessage}
    (hm : m ∈ messages)
    (hm' : m' ∈ (t.withContents movie.archiveChannelId messages).movieMessages movie none)
    (hid : m'.messageId = m.messageId) : m' = m := by
  obtain ⟨⟨s, hs, rfl⟩, -⟩ := (mem_movieMessages_iff ht.withContents).1 hm'
  have hrecorded :
      ((t.withContents movie.archiveChannelId messages).snapshot? movie.archiveChannelId
        m.messageId).map (fun s => (s.message, s.conflicted)) = some (m, false) :=
    snapshot?_withContents hm hordered
  rw [← hid, hs, Option.map_some] at hrecorded
  exact (Prod.mk.inj (Option.some.inj hrecorded)).1

end

section

variable [UnicodeData] {parser : ArchiveParser} {t : ArchiveTables} {movie : Movie}
  {poster : ArchiveMessage} {edits : List ArchiveMessage}

/-! ### What the parser accepts -/

theorem Reassigned.ordered (h : Reassigned parser t movie poster edits)
    (hbehind : ∀ m ∈ edits, poster.messageId < m.messageId) :
    (poster :: edits).Pairwise fun m m' => m.messageId < m'.messageId :=
  List.pairwise_cons.2 ⟨hbehind, h.ascending⟩

/-- An attached message comes after the poster. -/
theorem Reassigned.behind (ht : t.Sound) (hmovie : movie ∈ t.movies)
    (h : Reassigned parser t movie poster edits) {m : ArchiveMessage} (hm : m ∈ edits) :
    poster.messageId < m.messageId := by
  obtain ⟨row, hrow, hid⟩ := (h.attached m.messageId).1 (List.mem_map_of_mem hm)
  obtain ⟨hrow, hmovieId⟩ := mem_movieQualities.1 hrow
  obtain ⟨owner, howner, -, hlt⟩ := ht.rowMovie row hrow
  rw [hmovieId, KeyedTable.find?_of_mem hmovie] at howner
  obtain rfl := Option.some.inj howner
  rw [h.posterId, ← hid]
  exact hlt

/-- What the parser reads begins with the poster, and it accepts every attached message. -/
theorem Reassigned.opens (ht : t.Sound) (hfits : t.PostersFit) (hmovie : movie ∈ t.movies)
    (h : Reassigned parser t movie poster edits) : ∃ p rest,
      (t.withContents movie.archiveChannelId (poster :: edits)).movieMessages movie none =
          poster :: rest ∧ detectPoster poster = some p ∧
        ∀ m ∈ edits, ∃ item ∈ (parser.groupOf (some 32) (p, segment rest)).qualities,
          item.messageId = m.messageId := by
  obtain ⟨group, hnext, hposter, haccepts⟩ := h.accepted
  have hordered := h.ordered fun m hm => h.behind ht hmovie hm
  have hparse : (t.withContents movie.archiveChannelId (poster :: edits)).parseMovieGroup parser
      { movie with parserConfidence := 1 } none = some group := by
    have hmessages : (t.withContents movie.archiveChannelId (poster :: edits)).movieMessages
        { movie with parserConfidence := 1 } none =
          (t.withContents movie.archiveChannelId (poster :: edits)).movieMessages movie none := rfl
    rw [parseMovieGroup, if_neg Nat.one_ne_zero, hmessages, hnext]
    exact if_pos hposter
  obtain ⟨-, p, rest, ⟨m₀, hms, hid, hdetect⟩, rfl⟩ := parseMovieGroup_eq_some.1 hparse
  have hms : (t.withContents movie.archiveChannelId (poster :: edits)).movieMessages movie none =
      m₀ :: rest := hms
  have hmem : m₀ ∈ (t.withContents movie.archiveChannelId (poster :: edits)).movieMessages movie
      none := hms ▸ List.mem_cons_self
  obtain rfl : m₀ = poster :=
    eq_of_mem_withContents hfits hordered List.mem_cons_self hmem (hid.trans h.posterId.symm)
  exact ⟨p, rest, hms, hdetect, haccepts⟩

/-- The resolution of a message in a list without repetitions. -/
theorem captionQuality_of_mem (hascending : edits.Pairwise fun m m' => m.messageId < m'.messageId)
    {m : ArchiveMessage} (hm : m ∈ edits) :
    captionQuality edits m.messageId = extractQuality (boundedCaption m.caption) := by
  have hfind : (edits.find? fun m' => m'.messageId = m.messageId) = some m :=
    find?_of_unique hm (decide_eq_true rfl) fun m' hm' hid =>
      eq_of_messageId_eq hascending hm' hm (of_decide_eq_true hid)
  rw [captionQuality, hfind, Option.bind_some]

/-- An accepted message shows the resolution as which it is accepted. -/
theorem Reassigned.shows (ht : t.Sound) (hfits : t.PostersFit) (hmovie : movie ∈ t.movies)
    (h : Reassigned parser t movie poster edits) {p : PosterCandidate}
    {rest part : List ArchiveMessage}
    (hms : (t.withContents movie.archiveChannelId (poster :: edits)).movieMessages movie none =
      poster :: rest) (hpart : part ⊆ rest) {item : ParsedQuality}
    (hitem : item ∈ (parser.groupOf (some 32) (p, segment part)).qualities) {m : ArchiveMessage}
    (hm : m ∈ edits) (hid : item.messageId = m.messageId) :
    (m.mediaKind = .video ∨ m.mediaKind = .document) ∧
      captionQuality edits m.messageId = some item.quality := by
  have hordered := h.ordered fun m hm => h.behind ht hmovie hm
  obtain ⟨m', hm', hid', hkind, hquality⟩ := ArchiveParser.mem_groupOf hitem
  have hmem : m' ∈ (t.withContents movie.archiveChannelId (poster :: edits)).movieMessages movie
      none := hms ▸ List.mem_cons_of_mem _ (hpart (List.takeWhile_subset _ hm'))
  obtain rfl : m' = m :=
    eq_of_mem_withContents hfits hordered (List.mem_cons_of_mem _ hm) hmem (hid'.trans hid)
  exact ⟨hkind, (captionQuality_of_mem h.ascending hm).trans hquality⟩

/-- The targets are distinct: a group has one quality for each resolution. -/
theorem Reassigned.injOn_captionQuality (ht : t.Sound) (hfits : t.PostersFit)
    (hmovie : movie ∈ t.movies) (h : Reassigned parser t movie poster edits) :
    Set.InjOn (captionQuality edits) {id | id ∈ edits.map ArchiveMessage.messageId} := by
  obtain ⟨p, rest, hms, -, haccepts⟩ := h.opens ht hfits hmovie
  rintro id hid id' hid' heq
  obtain ⟨m, hm, rfl⟩ := List.mem_map.1 hid
  obtain ⟨m', hm', rfl⟩ := List.mem_map.1 hid'
  obtain ⟨item, hitem, hitemId⟩ := haccepts m hm
  obtain ⟨item', hitem', hitemId'⟩ := haccepts m' hm'
  obtain ⟨-, hquality⟩ := h.shows ht hfits hmovie hms (List.Subset.refl rest) hitem hm hitemId
  obtain ⟨-, hquality'⟩ := h.shows ht hfits hmovie hms (List.Subset.refl rest) hitem' hm' hitemId'
  have hascending : (rest.map ArchiveMessage.messageId).Pairwise (· < ·) := by
    have hall : AscendingFrom 0 (poster :: rest) := hms ▸ ascending_movieMessages none
    exact (List.pairwise_cons.1 hall.tail.2).2
  have honce : ((parser.groupOf (some 32) (p, segment rest)).qualities.map
      ParsedQuality.quality).Nodup := ArchiveParser.nodup_qualities_groupOf hascending
  rw [← hitemId, ← hitemId', List.inj_on_of_nodup_map honce hitem hitem'
    (Option.some.inj (hquality.symm.trans (heq.trans hquality')))]

/-! ### The parser in the middle of a pass -/

/-- Tables in which the movie has its place, with messages up to some id as they are now. -/
structure Follows (t u : ArchiveTables) (movie : Movie) (poster : ArchiveMessage)
    (edits : List ArchiveMessage) (P : ℕ → Prop) : Prop where
  places : SamePlaces t u
  agrees : Agrees (t.withContents movie.archiveChannelId (poster :: edits)) u
    movie.archiveChannelId P

variable {u : ArchiveTables} {stored : Movie} {configured : Option SettingValue}

omit [UnicodeData] in
theorem SamePlaces.moviePlace_eq (h : SamePlaces t u) (hmovie : movie ∈ t.movies)
    (hstored : u.movies.find? movie.id = some stored) : moviePlace stored = moviePlace movie := by
  have hplace := h.movies movie.id
  rw [hstored, KeyedTable.find?_of_mem hmovie] at hplace
  exact Option.some.inj hplace

omit [UnicodeData] in
theorem Follows.movieMessages_eq (hfits : t.PostersFit) (hmovie : movie ∈ t.movies)
    {through : Option ℕ} (h : Follows t u movie poster edits fun id => through.all (id ≤ ·))
    (hstored : u.movies.find? movie.id = some stored) : moviePlace stored = moviePlace movie ∧
      u.movieMessages stored through =
        (t.withContents movie.archiveChannelId (poster :: edits)).movieMessages movie through := by
  have hplace := h.places.moviePlace_eq hmovie hstored
  refine ⟨hplace, movieMessages_eq_of_agrees hfits.withContents (hfits.of_samePlaces h.places)
    (congrArg Prod.fst hplace) (fun id => ?_) h.agrees⟩
  rw [reaches_iff_of_samePlaces h.places hplace,
    reaches_iff_of_samePlaces samePlaces_withContents rfl]

/-- **An edit is accepted when it is replayed**, as what its caption shows. -/
theorem Reassigned.parse_through (ht : t.Sound) (hfits : t.PostersFit) (hmovie : movie ∈ t.movies)
    (h : Reassigned parser t movie poster edits) {m : ArchiveMessage} (hm : m ∈ edits)
    (hfollows : Follows t u movie poster edits fun id => id ≤ m.messageId)
    (hstored : u.movies.find? movie.id = some stored) (hconfidence : 0 < stored.parserConfidence) :
    (m.mediaKind = .video ∨ m.mediaKind = .document) ∧
      ∃ parsed, groupQuality? (u.parseMovieGroup parser stored (some m.messageId)) m.messageId =
          some parsed ∧ captionQuality edits m.messageId = some parsed.quality := by
  obtain ⟨p, rest, hms, hdetect, haccepts⟩ := h.opens ht hfits hmovie
  obtain ⟨item, hitem, hid⟩ := haccepts m hm
  have hbehind := h.behind ht hmovie hm
  have hthrough : Follows t u movie poster edits fun id => (some m.messageId).all (id ≤ ·) :=
    ⟨hfollows.places, fun id hle => hfollows.agrees id (of_decide_eq_true hle)⟩
  obtain ⟨hplace, hmessages⟩ := hthrough.movieMessages_eq hfits hmovie hstored
  have hupTo : (t.withContents movie.archiveChannelId (poster :: edits)).movieMessages movie
      (some m.messageId) = _ := movieMessages_some
  rw [hupTo, hms, List.filter_cons_of_pos (by simpa using hbehind.le)] at hmessages
  have hascending : (rest.map ArchiveMessage.messageId).Pairwise (· < ·) := by
    have hall : AscendingFrom 0 (poster :: rest) := hms ▸ ascending_movieMessages none
    exact (List.pairwise_cons.1 hall.tail.2).2
  have hgroup : u.parseMovieGroup parser stored (some m.messageId) = some (parser.groupOf (some 32)
      (p, segment (rest.filter fun m' => m'.messageId ≤ m.messageId))) := by
    refine parseMovieGroup_eq_some.2 ⟨hconfidence, p, _, ⟨poster, hmessages, ?_, hdetect⟩, rfl⟩
    exact h.posterId.trans (congrArg Prod.snd hplace).symm
  have harrived := ArchiveParser.mem_groupOf_through hascending hitem
  rw [hid] at harrived
  obtain ⟨hkind, -⟩ := h.shows ht hfits hmovie hms (List.filter_subset_self rest) harrived hm hid
  rw [hgroup, groupQuality?, Option.bind_some]
  refine ⟨hkind, ?_⟩
  cases hfind : (parser.groupOf (some 32) (p, segment (rest.filter fun m' =>
      m'.messageId ≤ m.messageId))).qualities.find? fun item => item.messageId = m.messageId with
  | none => exact absurd hid (by simpa using List.find?_eq_none.1 hfind item harrived)
  | some parsed =>
      have hparsedId : parsed.messageId = m.messageId := by simpa using List.find?_some hfind
      exact ⟨parsed, rfl, (h.shows ht hfits hmovie hms (List.filter_subset_self rest)
        (List.mem_of_find?_eq_some hfind) hm hparsedId).2⟩

/-- After the edits the parser accepts each of them as what its caption shows. -/
theorem Reassigned.acceptedQualities (ht : t.Sound) (hfits : t.PostersFit)
    (hmovie : movie ∈ t.movies)
    (h : Reassigned parser t movie poster edits) {m : ArchiveMessage} (hm : m ∈ edits)
    (hfollows : Follows t u movie poster edits fun _ => True)
    (hstored : u.movies.find? movie.id = some stored) (hconfidence : 0 < stored.parserConfidence) :
    ∃ parsed, ((u.acceptedQualities parser stored).find? fun item => item.messageId = m.messageId) =
        some parsed ∧ captionQuality edits m.messageId = some parsed.quality ∧
          0 < parsed.confidence := by
  obtain ⟨p, rest, hms, hdetect, haccepts⟩ := h.opens ht hfits hmovie
  obtain ⟨item, hitem, hid⟩ := haccepts m hm
  have hall : Follows t u movie poster edits fun id => (none : Option ℕ).all (id ≤ ·) :=
    ⟨hfollows.places, fun id _ => hfollows.agrees id trivial⟩
  obtain ⟨hplace, hmessages⟩ := hall.movieMessages_eq hfits hmovie hstored
  rw [hms] at hmessages
  have hgroup : u.parseMovieGroup parser stored none =
      some (parser.groupOf (some 32) (p, segment rest)) := by
    refine parseMovieGroup_eq_some.2 ⟨hconfidence, p, _, ⟨poster, hmessages, ?_, hdetect⟩, rfl⟩
    exact h.posterId.trans (congrArg Prod.snd hplace).symm
  rw [ArchiveTables.acceptedQualities, hgroup, Option.map_some, Option.getD_some]
  cases hfind : (parser.groupOf (some 32) (p, segment rest)).qualities.find? fun item =>
      item.messageId = m.messageId with
  | none => exact absurd hid (by simpa using List.find?_eq_none.1 hfind item hitem)
  | some parsed =>
      have hparsed := List.mem_of_find?_eq_some hfind
      have hparsedId : parsed.messageId = m.messageId := by simpa using List.find?_some hfind
      obtain ⟨m', -, haccepted⟩ := ArchiveParser.accepts_of_mem_windowItems
        ((parser.qualities_groupOf (p, segment rest)).mem_iff.1 hparsed)
      exact ⟨parsed, rfl,
        (h.shows ht hfits hmovie hms (List.Subset.refl rest) hparsed hm hparsedId).2,
        haccepted.confidence_pos⟩

/-! ### Stages of a pass -/

/-- The tables in the middle of a pass: the messages that are done are recorded as they are now, and
once the poster is done the movie has a confidence. -/
structure Stage (t u : ArchiveTables) (movie : Movie) (poster : ArchiveMessage)
    (edits : List ArchiveMessage) (done : ℕ → Prop) : Prop where
  ready : u.Ready movie.archiveChannelId (poster :: edits)
  follows : Follows t u movie poster edits fun id =>
    done id ∨ id ∉ (poster :: edits).map ArchiveMessage.messageId
  confident : done poster.messageId → ∀ stored, u.movies.find? movie.id = some stored →
    0 < stored.parserConfidence

omit [UnicodeData] in
theorem Follows.mono {P Q : ℕ → Prop} (h : Follows t u movie poster edits P)
    (hQ : ∀ id, Q id → P id) : Follows t u movie poster edits Q :=
  ⟨h.places, fun id hid => h.agrees id (hQ id hid)⟩

/-- Before the first pass nothing is done. -/
theorem Reassigned.stage (ht : t.Sound) (h : Reassigned parser t movie poster edits) :
    Stage t t movie poster edits fun _ => False := by
  refine ⟨⟨ht, h.current⟩, ⟨.refl, fun id hid => ?_⟩, fun hdone => hdone.elim⟩
  rw [snapshot?_withContents_of_notMem (hid.resolve_left not_false)]

variable {u' : ArchiveTables} {done : ℕ → Prop} {message : ArchiveMessage}

omit [UnicodeData] in
/-- A message of the pass is recorded. -/
theorem Follows.recorded (h : Follows t u movie poster edits fun id =>
      done id ∨ id ∉ (poster :: edits).map ArchiveMessage.messageId)
    (hordered : (poster :: edits).Pairwise fun m m' => m.messageId < m'.messageId)
    (hmessage : message ∈ poster :: edits) (hplaces : SamePlaces u u')
    (hsnapshots : u'.snapshots = (u.recordMessage movie.archiveChannelId message).snapshots) :
    Follows t u' movie poster edits fun id => (done id ∨ id = message.messageId) ∨
      id ∉ (poster :: edits).map ArchiveMessage.messageId := by
  refine ⟨h.places.trans hplaces, fun id hid => ?_⟩
  by_cases hself : id = message.messageId
  · subst hself
    rw [snapshot?_replayed_self hsnapshots, Option.map_some, view_recordedSnapshot,
      snapshot?_withContents hmessage hordered]
  · rw [snapshot?_replayed hsnapshots hself]
    exact h.agrees id (hid.imp_left fun hdone => hdone.resolve_right hself)

omit [UnicodeData] in
theorem UniqueKeys.posterMovie?_of_mem (hkeys : u.UniqueKeys) (hstored : stored ∈ u.movies) :
    u.posterMovie? stored.archiveChannelId stored.posterMessageId = some stored := by
  refine find?_of_unique hstored (by simp) fun other hother hfound => ?_
  simp only [Bool.and_eq_true, decide_eq_true_eq] at hfound
  exact hkeys.poster other hother stored hstored hfound.1 hfound.2

omit [UnicodeData] in
theorem UniqueKeys.attachedQuality?_of_mem (hkeys : u.UniqueKeys) {row : MovieQuality}
    (hrow : row ∈ u.qualities) :
    u.attachedQuality? row.archiveChannelId row.archiveMessageId = some row := by
  refine find?_of_unique hrow (by simp) fun other hother hfound => ?_
  simp only [Bool.and_eq_true, decide_eq_true_eq] at hfound
  exact hkeys.message other hother row hrow hfound.1 hfound.2

omit [UnicodeData] in
/-- The label of a message is the resolution of the row that is attached to it. -/
theorem UniqueKeys.label_eq_some (hkeys : u.UniqueKeys) {channelId : ℤ} {messageId : ℕ}
    {quality : Resolution} : u.label channelId messageId = some quality ↔
      ∃ row ∈ u.qualities, row.archiveChannelId = channelId ∧ row.archiveMessageId = messageId ∧
        row.quality = quality := by
  rw [label, Option.map_eq_some_iff]
  constructor
  · rintro ⟨row, hfound, hquality⟩
    obtain ⟨hrow, hchannel, hid⟩ := attachedQuality?_eq_some hfound
    exact ⟨row, hrow, hchannel, hid, hquality⟩
  · rintro ⟨row, hrow, rfl, rfl, hquality⟩
    exact ⟨row, hkeys.attachedQuality?_of_mem hrow, hquality⟩

omit [UnicodeData] in
/-- Without a new key there is no new label. -/
theorem SameKeys.label_eq (h : SameKeys u u') (hkeys : u.UniqueKeys) {channelId : ℤ} :
    u'.label channelId = u.label channelId := by
  funext messageId
  refine Option.ext fun quality => ?_
  rw [(hkeys.of_sameKeys h).label_eq_some, hkeys.label_eq_some]
  constructor
  · rintro ⟨row', hrow', rfl, rfl, rfl⟩
    obtain ⟨row, hrow, -, hplace, hquality⟩ := h.row_origin hrow'
    exact ⟨row, hrow, congrArg (fun p => p.2.1) hplace, congrArg (fun p => p.2.2) hplace, hquality⟩
  · rintro ⟨row, hrow, rfl, rfl, rfl⟩
    have hplace := h.rows row.id
    have hlabel := h.labels row.id
    rw [KeyedTable.find?_of_mem hrow, Option.map_some] at hplace hlabel
    obtain ⟨row', hrow', hplace⟩ := Option.map_eq_some_iff.1 hplace
    rw [hrow', Option.map_some] at hlabel
    exact ⟨row', KeyedTable.mem_of_find? hrow', congrArg (fun p => p.2.1) hplace,
      congrArg (fun p => p.2.2) hplace, Option.some.inj hlabel⟩

/-- The next stage. -/
theorem Stage.recorded (hstage : Stage t u movie poster edits done)
    (hconfigured : getInt configured = .ok (some movie.archiveChannelId))
    (hordered : (poster :: edits).Pairwise fun m m' => m.messageId < m'.messageId)
    (hmessage : message ∈ poster :: edits)
    (hcall : u.replayNow parser configured movie.archiveChannelId message = .ok u')
    (hplaces : SamePlaces u u') (hconfident : done poster.messageId ∨ message = poster →
      ∀ stored, u'.movies.find? movie.id = some stored → 0 < stored.parserConfidence) :
    Stage t u' movie poster edits fun id => done id ∨ id = message.messageId := by
  have hdistinct : ∀ m ∈ poster :: edits, ∀ m' ∈ poster :: edits, m.messageId = m'.messageId →
      m = m' := fun m hm m' hm' => eq_of_messageId_eq hordered hm hm'
  have hcurrent := hstage.ready.current message hmessage
  refine ⟨hstage.ready.replayNow hconfigured hdistinct hmessage hcall,
    hstage.follows.recorded hordered hmessage hplaces
      (hstage.ready.sound.replayNow hconfigured hcurrent hcall).2, fun hdone => hconfident ?_⟩
  exact hdone.imp_right fun hid => hdistinct message hmessage poster List.mem_cons_self hid.symm

/-- What the replay of the poster does after recording it: the movie gets the columns of the poster
and is revalidated. -/
inductive PosterStep (parser : ArchiveParser) (u : ArchiveTables) (movie : Movie)
    (poster : ArchiveMessage) : ArchiveTables → Prop
  | rewritten (stored : Movie) (group : ParsedMovieGroup)
      (hstored : u.movies.find? movie.id = some stored) (hconfidence : 0 < group.posterConfidence) :
      PosterStep parser u movie poster
        (((u.recordMessage movie.archiveChannelId poster).updateMovie stored.id
          (setPoster group)).revalidateMovie parser (setPoster group stored)).1

theorem PosterStep.sameKeys (h : PosterStep parser u movie poster u') : SameKeys u u' := by
  cases h with
  | rewritten stored group =>
      have hrecorded : SameKeys u (u.recordMessage movie.archiveChannelId poster) :=
        sameKeys_recordMessage
      exact (hrecorded.trans (samePlaces_setPoster.sameKeys rfl)).trans sameKeys_revalidateMovie

/-- The movie after its poster has been replayed: it has a confidence, and it is indexed only with
a row. -/
theorem PosterStep.movie_eq (h : PosterStep parser u movie poster u') {stored' : Movie}
    (hstored' : u'.movies.find? movie.id = some stored') : 0 < stored'.parserConfidence ∧
      (stored'.status = .indexed → ∃ row ∈ u'.qualities, row.movieId = movie.id) := by
  cases h with
  | rewritten stored group hstored hconfidence =>
      let written := (u.recordMessage movie.archiveChannelId poster).updateMovie stored.id
        (setPoster group)
      have hid : stored.id = movie.id := KeyedTable.key_of_find? hstored
      have hset : written.movies.find? stored.id = some (setPoster group stored) := by
        refine find?_updateMovie_self ?_
        rw [movies_recordMessage, hid, hstored]
      have hfinal : (written.revalidateMovie parser (setPoster group stored)).1.movies.find?
          stored.id = some { setPoster group stored with
            status := (written.revalidateAttachedQualities parser
              (setPoster group stored)).freshStatus (setPoster group stored) } :=
        find?_updateMovie_self hset
      rw [← hid] at hstored'
      obtain rfl := Option.some.inj (hfinal.symm.trans hstored')
      refine ⟨hconfidence, fun hindexed => ?_⟩
      obtain ⟨row, hrow, hmovieId⟩ := (freshStatus_eq_indexed hindexed).2.2.1
      exact ⟨row, hrow, hmovieId.trans hid⟩

theorem Stage.posterStep (ht : t.Sound) (hfits : t.PostersFit) (hmovie : movie ∈ t.movies)
    (h : Reassigned parser t movie poster edits)
    (hconfigured : getInt configured = .ok (some movie.archiveChannelId))
    (hstage : Stage t u movie poster edits done)
    (hcall : u.replayNow parser configured movie.archiveChannelId poster = .ok u') :
    PosterStep parser u movie poster u' := by
  obtain ⟨p, rest, -, hdetect, -⟩ := h.opens ht hfits hmovie
  obtain ⟨⟨result, hindex⟩, -⟩ := reconcileEdit_replayed hconfigured
    (hstage.ready.current poster List.mem_cons_self) hcall
  obtain ⟨stored, hstored, hchannel, hposter⟩ :=
    hstage.follows.places.find?_movie (KeyedTable.find?_of_mem hmovie)
  have hkeys : (u.recordMessage movie.archiveChannelId poster).UniqueKeys :=
    hstage.ready.sound.toUniqueKeys.of_sameKeys sameKeys_recordMessage
  have hfound : (u.recordMessage movie.archiveChannelId poster).posterMovie? movie.archiveChannelId
      poster.messageId = some stored := by
    have hmem : stored ∈ (u.recordMessage movie.archiveChannelId poster).movies :=
      movies_recordMessage.symm ▸ KeyedTable.mem_of_find? hstored
    have hself := hkeys.posterMovie?_of_mem hmem
    rw [hchannel, hposter, ← h.posterId] at hself
    exact hself
  have hkind : poster.mediaKind = .photo := by
    by_contra hne
    rw [detectPoster_eq_none_of_ne hne] at hdetect
    cases hdetect
  rw [reconcileMessage, hfound] at hindex
  dsimp only at hindex
  rw [reconcilePosterEdit, if_neg (not_not.2 hkind), parsePoster_of_detectPoster hdetect] at hindex
  obtain rfl := congrArg Prod.fst (Except.ok.inj hindex)
  exact .rewritten stored _ hstored (detectPoster_bounds hdetect).1

/-- **The poster is replayed**: the movie gets a confidence, and no label changes. -/
theorem Stage.replayPoster (ht : t.Sound) (hfits : t.PostersFit) (hmovie : movie ∈ t.movies)
    (h : Reassigned parser t movie poster edits)
    (hconfigured : getInt configured = .ok (some movie.archiveChannelId))
    (hstage : Stage t u movie poster edits done)
    (hcall : u.replayNow parser configured movie.archiveChannelId poster = .ok u') :
    Stage t u' movie poster edits (fun id => done id ∨ id = poster.messageId) ∧
      u'.label movie.archiveChannelId = u.label movie.archiveChannelId := by
  have hordered := h.ordered fun m hm => h.behind ht hmovie hm
  have hstep := hstage.posterStep ht hfits hmovie h hconfigured hcall
  exact ⟨hstage.recorded hconfigured hordered List.mem_cons_self hcall hstep.sameKeys.toSamePlaces
    fun _ _ hstored' => (hstep.movie_eq hstored').1,
    hstep.sameKeys.label_eq hstage.ready.sound.toUniqueKeys⟩

/-! ### One edit -/

omit [UnicodeData] in
theorem SamePlaces.row_image (h : SamePlaces u u') {row : MovieQuality} (hrow : row ∈ u.qualities) :
    ∃ row' ∈ u'.qualities, row'.id = row.id ∧ rowPlace row' = rowPlace row := by
  have hplace := h.rows row.id
  rw [KeyedTable.find?_of_mem hrow, Option.map_some] at hplace
  obtain ⟨row', hrow', hplace⟩ := Option.map_eq_some_iff.1 hplace
  obtain ⟨hrow', hid⟩ := KeyedTable.find?_eq_some.1 hrow'
  exact ⟨row', hrow', hid, hplace⟩

omit [UnicodeData] in
/-- A row of the movie is in the channel of the movie. -/
theorem SamePlaces.channel_of_row (h : SamePlaces t u) (ht : t.Linked) (hmovie : movie ∈ t.movies)
    {row : MovieQuality} (hrow : row ∈ u.qualities) (hmovieId : row.movieId = movie.id) :
    row.archiveChannelId = movie.archiveChannelId := by
  obtain ⟨before, hbefore, -, hbeforeMovie, hchannel, -⟩ := h.row_origin hrow
  obtain ⟨owner, howner, howned, -⟩ := ht.rowMovie before hbefore
  rw [hbeforeMovie, hmovieId, KeyedTable.find?_of_mem hmovie] at howner
  obtain rfl := Option.some.inj howner
  rw [← hchannel, howned]

/-- The attached messages are those of the rows, at every stage. -/
theorem Reassigned.mem_edits_iff (h : Reassigned parser t movie poster edits)
    (hplaces : SamePlaces t u) {messageId : ℕ} :
    messageId ∈ edits.map ArchiveMessage.messageId ↔
      ∃ row ∈ u.qualities, row.movieId = movie.id ∧ row.archiveMessageId = messageId := by
  rw [h.attached]
  constructor
  · rintro ⟨row, hrow, rfl⟩
    obtain ⟨hrow, hmovieId⟩ := mem_movieQualities.1 hrow
    obtain ⟨row', hrow', -, hplace⟩ := hplaces.row_image hrow
    exact ⟨row', hrow', (congrArg Prod.fst hplace).trans hmovieId, congrArg (fun p => p.2.2) hplace⟩
  · rintro ⟨row', hrow', hmovieId, rfl⟩
    obtain ⟨row, hrow, -, hrowMovie, -, hid⟩ := hplaces.row_origin hrow'
    exact ⟨row, mem_movieQualities.2 ⟨hrow, hrowMovie.trans hmovieId⟩, hid⟩

/-- The movie as it is stored, and the row that is attached to a message of it. -/
structure Attached (u : ArchiveTables) (movie : Movie) (messageId : ℕ) (stored : Movie)
    (row : MovieQuality) : Prop where
  isStored : u.movies.find? movie.id = some stored
  isRow : row ∈ u.qualities
  movieId : row.movieId = movie.id
  messageId : row.archiveMessageId = messageId

omit [UnicodeData] in
theorem Attached.find?_recorded {messageId : ℕ} {row : MovieQuality}
    (h : Attached u movie messageId stored row) :
    (u.recordMessage movie.archiveChannelId message).movies.find? stored.id = some stored := by
  have hid : stored.id = movie.id := KeyedTable.key_of_find? h.isStored
  rw [movies_recordMessage, hid, h.isStored]

/-- **What the replay of an edit does** after recording it: another row of the movie has the
resolution, and row and movie are set aside; or the row gets it, and the movie is revalidated. -/
inductive EditStep (parser : ArchiveParser) (u : ArchiveTables) (movie : Movie)
    (edits : List ArchiveMessage) (message : ArchiveMessage) : ArchiveTables → Prop
  | taken (stored : Movie) (row other : MovieQuality) (f : MovieQuality → MovieQuality)
      (hf : SetsAside f) (hattached : Attached u movie message.messageId stored row)
      (hother : other ∈ u.qualities) (hmovieId : other.movieId = movie.id)
      (hlabel : captionQuality edits message.messageId = some other.quality)
      (hne : other.id ≠ row.id) :
      EditStep parser u movie edits message
        (((u.recordMessage movie.archiveChannelId message).updateQuality row.id f hf.id).updateMovie
          stored.id fun m => { m with status := .ambiguous })
  | free (stored : Movie) (row : MovieQuality) (parsed : ParsedQuality)
      (hattached : Attached u movie message.messageId stored row)
      (hlabel : captionQuality edits message.messageId = some parsed.quality)
      (hfree : ∀ other ∈ u.qualities, other.movieId = movie.id → other.quality = parsed.quality →
        other.id = row.id) :
      EditStep parser u movie edits message
        (((u.recordMessage movie.archiveChannelId message).updateQuality row.id
          (setQualityColumns parsed)).revalidateMovie parser stored).1

/-- **An edit is replayed** when the poster and the edits before it are done. -/
theorem Stage.editStep (ht : t.Sound) (hfits : t.PostersFit) (hmovie : movie ∈ t.movies)
    (h : Reassigned parser t movie poster edits)
    (hconfigured : getInt configured = .ok (some movie.archiveChannelId))
    (hstage : Stage t u movie poster edits done) (hmessage : message ∈ edits)
    (hearlier : ∀ m ∈ poster :: edits, m.messageId < message.messageId → done m.messageId)
    (hcall : u.replayNow parser configured movie.archiveChannelId message = .ok u') :
    EditStep parser u movie edits message u' := by
  have hordered := h.ordered fun m hm => h.behind ht hmovie hm
  obtain ⟨⟨result, hindex⟩, -⟩ := reconcileEdit_replayed hconfigured
    (hstage.ready.current message (List.mem_cons_of_mem _ hmessage)) hcall
  have hrecorded : SamePlaces u (u.recordMessage movie.archiveChannelId message) :=
    samePlaces_recordMessage
  have hkeys : (u.recordMessage movie.archiveChannelId message).UniqueKeys :=
    hstage.ready.sound.toUniqueKeys.of_sameKeys sameKeys_recordMessage
  obtain ⟨stored, hstored, hplaceOf⟩ :=
    hstage.follows.places.find?_movie (KeyedTable.find?_of_mem hmovie)
  obtain ⟨row, hrow, hmovieId, hid⟩ :=
    (h.mem_edits_iff hstage.follows.places).1 (List.mem_map_of_mem hmessage)
  have hchannel := hstage.follows.places.channel_of_row ht.toLinked hmovie hrow hmovieId
  have hattached : Attached u movie message.messageId stored row := ⟨hstored, hrow, hmovieId, hid⟩
  -- the message is attached to its row, so it is the poster of no movie
  have hfound : (u.recordMessage movie.archiveChannelId message).attachedQuality?
      movie.archiveChannelId message.messageId = some row := by
    have hmem : row ∈ (u.recordMessage movie.archiveChannelId message).qualities :=
      qualities_recordMessage.symm ▸ hrow
    have hself := hkeys.attachedQuality?_of_mem hmem
    rw [hchannel, hid] at hself
    exact hself
  have hposter : (u.recordMessage movie.archiveChannelId message).posterMovie?
      movie.archiveChannelId message.messageId = none := by
    cases hother : (u.recordMessage movie.archiveChannelId message).posterMovie?
        movie.archiveChannelId message.messageId with
    | none => rfl
    | some other =>
        obtain ⟨hmem, hotherChannel, hotherId⟩ := posterMovie?_eq_some hother
        rw [movies_recordMessage] at hmem
        exact absurd (hotherId.trans hid.symm) (hstage.ready.sound.disjoint row hrow other hmem
          (hotherChannel.trans hchannel.symm))
  have hmovieOf : (u.recordMessage movie.archiveChannelId message).attachedMovie?
      movie.archiveChannelId message.messageId = some stored := by
    rw [attachedMovie?, hfound, Option.bind_some, movies_recordMessage, hmovieId, hstored]
  -- the parser reads the messages up to this one as they are now
  have hfollows : Follows t (u.recordMessage movie.archiveChannelId message) movie poster edits
      fun id => id ≤ message.messageId := by
    refine (hstage.follows.recorded hordered (List.mem_cons_of_mem _ hmessage) hrecorded rfl).mono
      fun id hle => ?_
    by_cases hmem : id ∈ (poster :: edits).map ArchiveMessage.messageId
    · obtain ⟨m, hm, rfl⟩ := List.mem_map.1 hmem
      exact .inl (hle.lt_or_eq.imp_left (hearlier m hm))
    · exact .inr hmem
  have hconfident : 0 < stored.parserConfidence :=
    hstage.confident (hearlier poster List.mem_cons_self (h.behind ht hmovie hmessage)) stored
      hstored
  obtain ⟨hkind, parsed, hparsed, hlabel⟩ := h.parse_through ht hfits hmovie hmessage hfollows
    (movies_recordMessage.symm ▸ hstored) hconfident
  have hkind : (message.mediaKind ≠ .video && message.mediaKind ≠ .document) = false := by
    rcases hkind with hkind | hkind <;> simp [hkind]
  have hstoredId : stored.id = movie.id := KeyedTable.key_of_find? hstored
  rw [reconcileMessage, hposter] at hindex
  dsimp only at hindex
  rw [hfound, hmovieOf] at hindex
  dsimp only at hindex
  obtain rfl :
      ((u.recordMessage movie.archiveChannelId message).reconcileQualityEdit parser stored row
        message).1 = u' :=
    congrArg Prod.fst (Except.ok.inj hindex)
  rw [reconcileQualityEdit, if_neg (by rw [hkind]; exact Bool.false_ne_true), hparsed]
  dsimp only
  split
  · next htaken =>
      obtain ⟨-, htaken⟩ := Bool.and_eq_true_iff.1 htaken
      obtain ⟨other, hother, htaken⟩ := List.any_eq_true.1 htaken
      simp only [Bool.and_eq_true, decide_eq_true_eq] at htaken
      rw [qualities_recordMessage] at hother
      exact .taken stored row other
        (fun r => { r with rawCaption := message.caption.getD [], parserConfidence := 0 })
        ⟨fun _ => rfl, fun _ => rfl, fun _ => rfl, fun _ => rfl, fun _ => rfl, fun _ => rfl⟩
          hattached hother (htaken.1.1.trans hstoredId)
        (hlabel.trans (congrArg some htaken.1.2.symm)) htaken.2
  · next hfree =>
      refine .free stored row parsed hattached hlabel fun other hother hotherMovie hquality => ?_
      by_contra hne
      refine hfree (Bool.and_eq_true_iff.2 ⟨decide_eq_true fun hown => hne ?_, ?_⟩)
      · rw [hstage.ready.sound.quality other hother row hrow (hotherMovie.trans hmovieId.symm)
          (hquality.trans hown)]
      · have hmem : other ∈ (u.recordMessage movie.archiveChannelId message).qualities :=
          qualities_recordMessage.symm ▸ hother
        exact List.any_eq_true.2
          ⟨other, hmem, by simp [hotherMovie, hstoredId, hquality, hne]⟩

theorem EditStep.samePlaces (h : EditStep parser u movie edits message u') : SamePlaces u u' := by
  cases h with
  | taken stored row other f hf =>
      exact (samePlaces_recordMessage.trans hf.sameKeys.toSamePlaces).trans samePlaces_setStatus
  | free stored row parsed =>
      exact (samePlaces_recordMessage.trans samePlaces_setQualityColumns).trans
        samePlaces_revalidateMovie

/-- The movie keeps its confidence. -/
theorem EditStep.confidence_eq (h : EditStep parser u movie edits message u') {stored' : Movie}
    (hstored' : u'.movies.find? movie.id = some stored') : ∃ stored,
      u.movies.find? movie.id = some stored ∧
        stored'.parserConfidence = stored.parserConfidence := by
  cases h with
  | taken stored row other f hf hattached =>
      have hid : stored.id = movie.id := KeyedTable.key_of_find? hattached.isStored
      have hwritten : ((u.recordMessage movie.archiveChannelId message).updateQuality row.id f
          hf.id).movies.find? stored.id = some stored := hattached.find?_recorded
      rw [← hid, find?_updateMovie_self hwritten] at hstored'
      obtain rfl := Option.some.inj hstored'
      exact ⟨stored, hattached.isStored, rfl⟩
  | free stored row parsed hattached =>
      have hid : stored.id = movie.id := KeyedTable.key_of_find? hattached.isStored
      have hwritten : (((u.recordMessage movie.archiveChannelId message).updateQuality row.id
          (setQualityColumns parsed)).revalidateAttachedQualities parser stored).movies.find?
            stored.id = some stored := hattached.find?_recorded
      rw [← hid] at hstored'
      obtain rfl := Option.some.inj ((find?_updateMovie_self hwritten).symm.trans hstored')
      exact ⟨stored, hattached.isStored, rfl⟩

omit [UnicodeData] in
/-- A row that gets a free resolution gets a new label, and the others keep theirs. -/
theorem label_setQualityColumns (hkeys : u.UniqueKeys) {row : MovieQuality}
    (hrow : row ∈ u.qualities)
    {channelId : ℤ} (hchannel : row.archiveChannelId = channelId) {parsed : ParsedQuality}
    (hfree : ∀ other ∈ u.qualities, other.movieId = row.movieId →
      other.quality = parsed.quality → other.id = row.id) :
    (u.updateQuality row.id (setQualityColumns parsed)).label channelId =
      Function.update (u.label channelId) row.archiveMessageId (some parsed.quality) := by
  subst hchannel
  have hkeys' : (u.updateQuality row.id (setQualityColumns parsed)).UniqueKeys :=
    hkeys.relabel hrow fun _ => hfree
  funext messageId
  refine Option.ext fun quality => ?_
  rw [hkeys'.label_eq_some]
  by_cases hid : messageId = row.archiveMessageId
  · subst hid
    rw [Function.update_self, Option.some.injEq]
    constructor
    · rintro ⟨row', hrow', hchannel, hmessage, rfl⟩
      rw [hkeys'.message row' hrow' _ (mem_updateQuality_self hrow) hchannel hmessage]
      rfl
    · rintro rfl
      exact ⟨_, mem_updateQuality_self hrow, rfl, rfl, rfl⟩
  · rw [Function.update_of_ne hid, hkeys.label_eq_some]
    constructor
    · rintro ⟨row', hrow', hchannel, hmessage, hquality⟩
      rcases mem_updateQuality hrow hrow' with ⟨hrow', -⟩ | rfl
      · exact ⟨row', hrow', hchannel, hmessage, hquality⟩
      · exact absurd hmessage.symm hid
    · rintro ⟨row', hrow', hchannel, hmessage, hquality⟩
      refine ⟨row', mem_updateQuality_of_ne hrow' fun hsame => hid ?_, hchannel, hmessage, hquality⟩
      rw [← hmessage, u.qualities.ext_key hrow' hrow hsame]

omit [UnicodeData] in
/-- A resolution that no other row of the movie has is free after the recording, too. -/
theorem Attached.free {messageId : ℕ} {row : MovieQuality}
    (hattached : Attached u movie messageId stored row) {parsed : ParsedQuality}
    (hfree : ∀ other ∈ u.qualities, other.movieId = movie.id → other.quality = parsed.quality →
      other.id = row.id) :
    ∀ other ∈ (u.recordMessage movie.archiveChannelId message).qualities,
      other.movieId = row.movieId → other.quality = parsed.quality → other.id = row.id := by
  intro other hother hmovieId
  rw [qualities_recordMessage] at hother
  exact hfree other hother (hmovieId.trans hattached.movieId)

omit [UnicodeData] in
theorem Attached.relabel {messageId : ℕ} {row : MovieQuality}
    (hattached : Attached u movie messageId stored row) (hkeys : u.UniqueKeys)
    {parsed : ParsedQuality} (hfree : ∀ other ∈ u.qualities, other.movieId = movie.id →
      other.quality = parsed.quality → other.id = row.id) :
    ((u.recordMessage movie.archiveChannelId message).updateQuality row.id
      (setQualityColumns parsed)).UniqueKeys := by
  have hrow : row ∈ (u.recordMessage movie.archiveChannelId message).qualities :=
    qualities_recordMessage.symm ▸ hattached.isRow
  exact (hkeys.of_sameKeys (sameKeys_recordMessage)).relabel hrow
    fun _ => hattached.free hfree

/-- **One edit is one step of relabelling.** -/
theorem EditStep.label_eq (hstep : EditStep parser u movie edits message u') (ht : t.Linked)
    (hmovie : movie ∈ t.movies) (h : Reassigned parser t movie poster edits)
    (hplaces : SamePlaces t u) (hkeys : u.UniqueKeys) :
    u'.label movie.archiveChannelId = Relabelling.relabel (edits.map ArchiveMessage.messageId)
      (captionQuality edits) (u.label movie.archiveChannelId) message.messageId := by
  have hrecorded : SameKeys u (u.recordMessage movie.archiveChannelId message) :=
    sameKeys_recordMessage
  cases hstep with
  | taken stored row other f hf hattached hother hmovieId hlabel hne =>
      have hsame :
          SameKeys u (((u.recordMessage movie.archiveChannelId message).updateQuality row.id f
            hf.id).updateMovie stored.id fun m => { m with status := .ambiguous }) :=
        (hrecorded.trans hf.sameKeys).trans (samePlaces_setStatus.sameKeys rfl)
      have hchannel := hplaces.channel_of_row ht hmovie hother hmovieId
      have hrowChannel := hplaces.channel_of_row ht hmovie hattached.isRow hattached.movieId
      rw [hsame.label_eq hkeys, Relabelling.relabel_of_taken
        ((h.mem_edits_iff hplaces).2 ⟨other, hother, hmovieId, rfl⟩) ?_ ?_]
      · -- the holder of the label is another message, or it would be the row itself
        intro hid
        rw [hkeys.message other hother row hattached.isRow (hchannel.trans hrowChannel.symm)
          (hid.trans hattached.messageId.symm)] at hne
        exact hne rfl
      · rw [hlabel, hkeys.label_eq_some]
        exact ⟨other, hother, hchannel, rfl, rfl⟩
  | free stored row parsed hattached hlabel hfree =>
      have hrow : row ∈ (u.recordMessage movie.archiveChannelId message).qualities :=
        qualities_recordMessage.symm ▸ hattached.isRow
      have hchannel := hplaces.channel_of_row ht hmovie hattached.isRow hattached.movieId
      rw [sameKeys_revalidateMovie.label_eq (hattached.relabel hkeys hfree),
        label_setQualityColumns (hkeys.of_sameKeys hrecorded) hrow hchannel (hattached.free hfree),
        hrecorded.label_eq hkeys, hattached.messageId, ← hlabel, Relabelling.relabel_eq_update]
      intro id hid hne htaken
      obtain ⟨other, hother, hmovieId, rfl⟩ := (h.mem_edits_iff hplaces).1 hid
      rw [hlabel, hkeys.label_eq_some] at htaken
      obtain ⟨other', hother', hchannel', hsame, hquality⟩ := htaken
      have hotherChannel := hplaces.channel_of_row ht hmovie hother hmovieId
      obtain rfl : other' = other := hkeys.message other' hother' other hother
        (hchannel'.trans hotherChannel.symm) hsame
      have hself :=
        u.qualities.ext_key hother hattached.isRow (hfree other' hother hmovieId hquality)
      exact hne ((congrArg MovieQuality.archiveMessageId hself).trans hattached.messageId)

/-- **An edit is replayed**: it is done, and it is one step of relabelling. -/
theorem Stage.replayEdit (ht : t.Sound) (hfits : t.PostersFit) (hmovie : movie ∈ t.movies)
    (h : Reassigned parser t movie poster edits)
    (hconfigured : getInt configured = .ok (some movie.archiveChannelId))
    (hstage : Stage t u movie poster edits done) (hmessage : message ∈ edits)
    (hearlier : ∀ m ∈ poster :: edits, m.messageId < message.messageId → done m.messageId)
    (hcall : u.replayNow parser configured movie.archiveChannelId message = .ok u') :
    Stage t u' movie poster edits (fun id => done id ∨ id = message.messageId) ∧
      u'.label movie.archiveChannelId = Relabelling.relabel (edits.map ArchiveMessage.messageId)
        (captionQuality edits) (u.label movie.archiveChannelId) message.messageId := by
  have hordered := h.ordered fun m hm => h.behind ht hmovie hm
  have hstep := hstage.editStep ht hfits hmovie h hconfigured hmessage hearlier hcall
  refine ⟨hstage.recorded hconfigured hordered (List.mem_cons_of_mem _ hmessage) hcall
    hstep.samePlaces fun _ stored' hstored' => ?_, hstep.label_eq ht.toLinked hmovie h
      hstage.follows.places hstage.ready.sound.toUniqueKeys⟩
  obtain ⟨stored, hstored, hconfidence⟩ := hstep.confidence_eq hstored'
  rw [hconfidence]
  exact hstage.confident (hearlier poster List.mem_cons_self (h.behind ht hmovie hmessage)) stored
    hstored

/-! ### After the last edit -/

/-- Every row of the movie has the label of its caption. -/
theorem Reassigned.labelled_iff (h : Reassigned parser t movie poster edits) (ht : t.Linked)
    (hmovie : movie ∈ t.movies) (hplaces : SamePlaces t u) (hkeys : u.UniqueKeys) :
    (∀ row ∈ u.movieQualities movie.id, captionQuality edits row.archiveMessageId =
      some row.quality) ↔
      ∀ id ∈ edits.map ArchiveMessage.messageId,
        u.label movie.archiveChannelId id = captionQuality edits id := by
  constructor
  · intro hlabelled id hid
    obtain ⟨row, hrow, hmovieId, rfl⟩ := (h.mem_edits_iff hplaces).1 hid
    rw [hlabelled row (mem_movieQualities.2 ⟨hrow, hmovieId⟩), hkeys.label_eq_some]
    exact ⟨row, hrow, hplaces.channel_of_row ht hmovie hrow hmovieId, rfl, rfl⟩
  · intro hlabels row hrow
    obtain ⟨hrow, hmovieId⟩ := mem_movieQualities.1 hrow
    rw [← hlabels _ ((h.mem_edits_iff hplaces).2 ⟨row, hrow, hmovieId, rfl⟩), hkeys.label_eq_some]
    exact ⟨row, hrow, hplaces.channel_of_row ht hmovie hrow hmovieId, rfl, rfl⟩

/-- When everything is done, the conflicts left in the range are those of other messages. -/
theorem Reassigned.unconflicted_iff (h : Reassigned parser t movie poster edits) (ht : t.Sound)
    (hfits : t.PostersFit) (hmovie : movie ∈ t.movies)
    (hfollows : Follows t u movie poster edits fun _ => True)
    (hplace : moviePlace stored = moviePlace movie) :
    (∀ s ∈ u.snapshotsUpTo stored (u.rangeStop stored), s.conflicted = false) ↔
      ∀ s ∈ t.snapshotsUpTo movie (t.rangeStop movie), s.conflicted →
        s.messageId ∈ (poster :: edits).map ArchiveMessage.messageId := by
  have hordered := h.ordered fun m hm => h.behind ht hmovie hm
  have hchannel : stored.archiveChannelId = movie.archiveChannelId := congrArg Prod.fst hplace
  have hreach : ∀ id, u.Reaches stored id ↔ t.Reaches movie id := fun id =>
    reaches_iff_of_samePlaces hfollows.places hplace
  constructor
  · -- a conflict on another message is still there
    intro hnone s hs hconflicted
    by_contra hother
    obtain ⟨hs, hreached⟩ := (mem_snapshotsUpTo_rangeStop hfits).1 hs
    have hsame : (t.withContents movie.archiveChannelId (poster :: edits)).snapshot?
        movie.archiveChannelId s.messageId = _ := snapshot?_withContents_of_notMem hother
    rw [← hsame] at hs
    obtain ⟨s', hs', hmessage, hconflicted'⟩ := hfollows.agrees.exists_snapshot trivial hs
    obtain ⟨-, -, hid⟩ := snapshot?_eq_some.1 hs'
    have hmem : s' ∈ u.snapshotsUpTo stored (u.rangeStop stored) :=
      (mem_snapshotsUpTo_rangeStop (hfits.of_samePlaces hfollows.places)).2
        ⟨by rw [hchannel, hid, hs'], by rw [hid]; exact (hreach _).2 hreached⟩
    rw [hnone s' hmem, hconflicted] at hconflicted'
    cases hconflicted'
  · intro hothers s hs
    obtain ⟨hs, hreached⟩ :=
      (mem_snapshotsUpTo_rangeStop (hfits.of_samePlaces hfollows.places)).1 hs
    rw [hchannel] at hs
    by_cases hmem : s.messageId ∈ (poster :: edits).map ArchiveMessage.messageId
    · -- an edit has been recorded without a conflict
      obtain ⟨m, hm, hid⟩ := List.mem_map.1 hmem
      have hrecorded := hfollows.agrees s.messageId trivial
      rw [hs, ← hid, snapshot?_withContents hm hordered] at hrecorded
      exact congrArg Prod.snd (Option.some.inj hrecorded)
    · by_contra hconflicted
      obtain ⟨s', hs', -, hconflicted'⟩ := hfollows.agrees.symm.exists_snapshot trivial hs
      rw [snapshot?_withContents_of_notMem hmem] at hs'
      obtain ⟨-, -, hid⟩ := snapshot?_eq_some.1 hs'
      rw [← hid] at hs' hreached hmem
      refine hmem (hothers s' ((mem_snapshotsUpTo_rangeStop hfits).2
        ⟨hs', (hreach _).1 hreached⟩) ?_)
      exact hconflicted'.trans (Bool.not_eq_false _ ▸ hconflicted)

/-- A relabelled row leaves the movie indexed when every row has the label of its caption and no
other message is in conflict. -/
theorem Reassigned.freshStatus_revalidated (h : Reassigned parser t movie poster edits)
    (ht : t.Sound) (hfits : t.PostersFit) (hmovie : movie ∈ t.movies) (hmessage : message ∈ edits)
    (hstored : u.movies.find? movie.id = some stored) (hconfident : 0 < stored.parserConfidence)
    (hkeys : u.UniqueKeys) (hfollows : Follows t u movie poster edits fun _ => True)
    (hconflicts : ∀ s ∈ t.snapshotsUpTo movie (t.rangeStop movie), s.conflicted →
      s.messageId ∈ (poster :: edits).map ArchiveMessage.messageId)
    (hlabels : ∀ id ∈ edits.map ArchiveMessage.messageId,
      u.label movie.archiveChannelId id = captionQuality edits id) :
    (u.revalidateAttachedQualities parser stored).freshStatus stored = .indexed := by
  have hid : stored.id = movie.id := KeyedTable.key_of_find? hstored
  have hsame : SamePlaces u (u.revalidateAttachedQualities parser stored) :=
    samePlaces_revalidateAttachedQualities
  have hfollows' : Follows t (u.revalidateAttachedQualities parser stored) movie poster edits
      fun _ => True := ⟨hfollows.places.trans hsame, hfollows.agrees⟩
  have hplace := hfollows.places.moviePlace_eq hmovie hstored
  have hlabelled := (h.labelled_iff ht.toLinked hmovie hfollows.places hkeys).2 hlabels
  have hrows : ∀ row ∈ (u.revalidateAttachedQualities parser stored).movieQualities stored.id,
      row.parserConfidence ≠ 0 := by
    intro row' hrow'
    obtain ⟨hrow', hmovieId'⟩ := mem_movieQualities.1 hrow'
    obtain ⟨row, hrow, rfl⟩ := mem_qualities_revalidateMovie hrow'
    by_cases hmovieId : row.movieId = stored.id
    · -- a row of the movie is accepted with the resolution its caption shows
      rw [if_pos hmovieId]
      have hedited := (h.mem_edits_iff hfollows.places).2 ⟨row, hrow, hmovieId.trans hid, rfl⟩
      obtain ⟨m, hm, hmId⟩ := List.mem_map.1 hedited
      obtain ⟨parsed, hparsed, hquality, hpos⟩ :=
        h.acceptedQualities ht hfits hmovie hm hfollows hstored hconfident
      have hshown := hlabelled row (mem_movieQualities.2 ⟨hrow, hmovieId.trans hid⟩)
      rw [hmId] at hparsed hquality
      rw [revalidateRow, hparsed]
      dsimp only
      rw [if_pos (Option.some.inj (hquality.symm.trans hshown))]
      exact hpos.ne'
    · rw [if_neg hmovieId] at hmovieId'
      exact absurd hmovieId' hmovieId
  rw [freshStatus_of_accepted hconfident hrows
    ((h.unconflicted_iff ht hfits hmovie hfollows' hplace).2 hconflicts), if_neg]
  obtain ⟨row, hrow, hmovieId, -⟩ :=
    (h.mem_edits_iff hfollows'.places).1 (List.mem_map_of_mem hmessage)
  have hmem : row ∈ (u.revalidateAttachedQualities parser stored).movieQualities stored.id :=
    mem_movieQualities.2 ⟨hrow, hmovieId.trans hid.symm⟩
  rw [List.isEmpty_iff]
  exact List.ne_nil_of_mem hmem

/-- **After the last edit of a pass** the movie is repaired when every row has the label of its
caption and no other message is in conflict. -/
theorem EditStep.repaired_iff (hstep : EditStep parser u movie edits message u') (ht : t.Sound)
    (hfits : t.PostersFit) (hmovie : movie ∈ t.movies) (h : Reassigned parser t movie poster edits)
    (hmessage : message ∈ edits) (hkeys : u.UniqueKeys) (hkeys' : u'.UniqueKeys)
    (hconfident : ∀ stored, u.movies.find? movie.id = some stored → 0 < stored.parserConfidence)
    (hplaces : SamePlaces t u) (hfollows : Follows t u' movie poster edits fun _ => True) :
    u'.Repaired movie edits ↔
      (∀ s ∈ t.snapshotsUpTo movie (t.rangeStop movie), s.conflicted →
        s.messageId ∈ (poster :: edits).map ArchiveMessage.messageId) ∧
      ∀ id ∈ edits.map ArchiveMessage.messageId,
        u'.label movie.archiveChannelId id = captionQuality edits id := by
  have hlabelled := h.labelled_iff ht.toLinked hmovie hfollows.places hkeys'
  have hrecorded : SameKeys u (u.recordMessage movie.archiveChannelId message) :=
    sameKeys_recordMessage
  cases hstep with
  | taken stored row other f hf hattached hother hmovieId hlabel hne =>
      have hid : stored.id = movie.id := KeyedTable.key_of_find? hattached.isStored
      have hwritten : ((u.recordMessage movie.archiveChannelId message).updateQuality row.id f
          hf.id).movies.find? stored.id = some stored := hattached.find?_recorded
      constructor
      · rintro ⟨hindexed, -⟩
        rw [← hid, find?_updateMovie_self hwritten] at hindexed
        cases hindexed
      · -- the row whose resolution is taken keeps another one
        rintro ⟨-, hlabels⟩
        have hsame : SameKeys u (((u.recordMessage movie.archiveChannelId message).updateQuality
            row.id f hf.id).updateMovie stored.id fun m => { m with status := .ambiguous }) :=
          (hrecorded.trans hf.sameKeys).trans (samePlaces_setStatus.sameKeys rfl)
        have hself := hlabels message.messageId (List.mem_map_of_mem hmessage)
        rw [hsame.label_eq hkeys, hlabel, hkeys.label_eq_some] at hself
        obtain ⟨row', hrow', hchannel, hmessageId, hquality⟩ := hself
        have hrowChannel := hplaces.channel_of_row ht.toLinked hmovie hattached.isRow
          hattached.movieId
        obtain rfl : row' = row := hkeys.message row' hrow' row hattached.isRow
          (hchannel.trans hrowChannel.symm) (hmessageId.trans hattached.messageId.symm)
        rw [hkeys.quality other hother row' hrow' (hmovieId.trans hattached.movieId.symm)
          hquality.symm] at hne
        exact absurd rfl hne
  | free stored row parsed hattached hlabel hfree =>
      let relabelled := (u.recordMessage movie.archiveChannelId message).updateQuality row.id
        (setQualityColumns parsed)
      have hid : stored.id = movie.id := KeyedTable.key_of_find? hattached.isStored
      have hstored : relabelled.movies.find? stored.id = some stored := hattached.find?_recorded
      have hplace := hplaces.moviePlace_eq hmovie hattached.isStored
      have hkeysX : relabelled.UniqueKeys := hattached.relabel hkeys hfree
      have hfollowsX : Follows t relabelled movie poster edits fun _ => True :=
        ⟨(hplaces.trans hrecorded.toSamePlaces).trans samePlaces_setQualityColumns, hfollows.agrees⟩
      have hfinal : (relabelled.revalidateMovie parser stored).1.movies.find? movie.id =
          some { stored with
            status := (relabelled.revalidateAttachedQualities parser stored).freshStatus stored } :=
        hid ▸ find?_updateMovie_self hstored
      have hlabels : (relabelled.revalidateMovie parser stored).1.label movie.archiveChannelId =
          relabelled.label movie.archiveChannelId := sameKeys_revalidateMovie.label_eq hkeysX
      constructor
      · rintro ⟨hindexed, hshown⟩
        rw [hfinal] at hindexed
        obtain ⟨-, -, -, hnone⟩ := freshStatus_eq_indexed (Option.some.inj hindexed)
        have hfollows' :
            Follows t (relabelled.revalidateAttachedQualities parser stored) movie poster
              edits fun _ => True := ⟨hfollowsX.places.trans samePlaces_revalidateAttachedQualities,
          hfollows.agrees⟩
        exact ⟨(h.unconflicted_iff ht hfits hmovie hfollows' hplace).1 hnone, hlabelled.1 hshown⟩
      · rintro ⟨hconflicts, hshown⟩
        refine ⟨?_, hlabelled.2 hshown⟩
        rw [hfinal, Option.map_some]
        exact congrArg some (h.freshStatus_revalidated ht hfits hmovie hmessage (hid ▸ hstored)
          (hconfident stored hattached.isStored) hkeysX hfollowsX hconflicts (hlabels ▸ hshown))

end

end ArchiveTables

end CineGate
