/-
**Two full passes after the captions of a movie have been edited.**

A pass over the poster and the attached messages of a movie is a pass of `Relabelling` over the
labels of its rows, towards what the captions show.  Two passes therefore repair the movie unless
some chain of rows waits twice for a later one, as in a swap of two resolutions; such a movie stays
ambiguous, and no pass serves a row under a resolution that another row has.

* `ArchiveTables.Stage.replayPass` — **one pass relabels the rows**;
* `ArchiveTables.Stage.repaired_iff` — what a pass has to leave behind;
* `ArchiveTables.two_replays_repair_iff` — **what two passes repair**;
* `ArchiveTables.swapped_resolutions_stay_ambiguous` — a swap.
-/

import CineGate.ReplayedEdits

set_option relaxedAutoImplicit false
set_option autoImplicit false

namespace CineGate

namespace ArchiveTables

section

variable [UnicodeData] {parser : ArchiveParser} {configured : Option SettingValue}
  {t u u' : ArchiveTables} {movie : Movie} {poster : ArchiveMessage} {edits : List ArchiveMessage}
  {done : ℕ → Prop}

/-! ### One pass -/

omit [UnicodeData] in
theorem Stage.mono {P : ℕ → Prop} (h : Stage t u movie poster edits done)
    (hP : ∀ id ∈ (poster :: edits).map ArchiveMessage.messageId, P id ↔ done id) :
    Stage t u movie poster edits P := by
  refine ⟨h.ready, h.follows.mono fun id hid => ?_, fun hdone => h.confident ?_⟩
  · by_cases hmem : id ∈ (poster :: edits).map ArchiveMessage.messageId
    · exact .inl ((hP id hmem).1 (hid.resolve_right (not_not.2 hmem)))
    · exact .inr hmem
  · exact (hP _ List.mem_cons_self).1 hdone

/-- The edits of a pass, one after the other. -/
theorem Stage.replayEdits (ht : t.Sound) (hfits : t.PostersFit) (hmovie : movie ∈ t.movies)
    (h : Reassigned parser t movie poster edits)
    (hconfigured : getInt configured = .ok (some movie.archiveChannelId))
    {before after : List ArchiveMessage} (hsplit : before ++ after <+: edits)
    (hstage : Stage t u movie poster edits done) (hposter : done poster.messageId)
    (hbefore : ∀ m ∈ before, done m.messageId)
    (hcalls : after.foldlM (replayNow parser configured movie.archiveChannelId) u = .ok u') :
    Stage t u' movie poster edits (fun id => done id ∨ id ∈ after.map ArchiveMessage.messageId) ∧
      u'.label movie.archiveChannelId = (after.map ArchiveMessage.messageId).foldl
        (Relabelling.relabel (edits.map ArchiveMessage.messageId) (captionQuality edits))
          (u.label movie.archiveChannelId) := by
  induction after generalizing before u done with
  | nil =>
      obtain rfl := Except.ok.inj hcalls
      exact ⟨hstage.mono fun id _ => by simp, rfl⟩
  | cons m after ih =>
      obtain ⟨u₁, hcall, hrest⟩ := foldlM_cons_eq_ok.1 hcalls
      obtain ⟨rest, hedits⟩ := hsplit
      rw [List.append_assoc, List.cons_append] at hedits
      have hmem : m ∈ edits := hedits ▸ List.mem_append_right _ List.mem_cons_self
      have hascending := h.ascending
      rw [← hedits, List.pairwise_append, List.pairwise_cons] at hascending
      obtain ⟨-, ⟨hlater, -⟩, -⟩ := hascending
      -- the edits ascend, so those before this one have been replayed
      have hearlier : ∀ m' ∈ poster :: edits, m'.messageId < m.messageId → done m'.messageId := by
        intro m' hm' hlt
        rcases List.mem_cons.1 hm' with rfl | hm'
        · exact hposter
        · rw [← hedits, List.mem_append, List.mem_cons] at hm'
          rcases hm' with hm' | rfl | hm'
          · exact hbefore m' hm'
          · exact absurd hlt (lt_irrefl _)
          · exact absurd (hlt.trans (hlater m' hm')) (lt_irrefl _)
      obtain ⟨hstage₁, hlabel₁⟩ :=
        hstage.replayEdit ht hfits hmovie h hconfigured hmem hearlier hcall
      have hbefore₁ : ∀ m' ∈ before ++ [m], done m'.messageId ∨ m'.messageId = m.messageId := by
        intro m' hm'
        rcases List.mem_append.1 hm' with hm' | hm'
        · exact .inl (hbefore m' hm')
        · exact .inr (by rw [List.mem_singleton.1 hm'])
      have hsplit₁ : before ++ [m] ++ after <+: edits :=
        ⟨rest, by rw [List.append_assoc, List.append_assoc]; exact hedits⟩
      obtain ⟨hstage', hlabel'⟩ := ih hsplit₁ hstage₁ (.inl hposter) hbefore₁ hrest
      refine ⟨hstage'.mono fun id _ => ?_, ?_⟩
      · rw [List.map_cons, List.mem_cons, or_assoc]
      · rw [hlabel', hlabel₁, List.map_cons, List.foldl_cons]

/-- **One pass relabels the rows.** -/
theorem Stage.replayPass (ht : t.Sound) (hfits : t.PostersFit) (hmovie : movie ∈ t.movies)
    (h : Reassigned parser t movie poster edits)
    (hconfigured : getInt configured = .ok (some movie.archiveChannelId))
    (hstage : Stage t u movie poster edits done)
    (hcalls : (poster :: edits).foldlM (replayNow parser configured movie.archiveChannelId) u =
      .ok u') :
    Stage t u' movie poster edits (fun _ => True) ∧ u'.label movie.archiveChannelId =
      Relabelling.pass (edits.map ArchiveMessage.messageId) (captionQuality edits)
        (u.label movie.archiveChannelId) := by
  obtain ⟨u₁, hcall, hrest⟩ := foldlM_cons_eq_ok.1 hcalls
  obtain ⟨hstage₁, hlabel₁⟩ := hstage.replayPoster ht hfits hmovie h hconfigured hcall
  have hall : [] ++ edits <+: edits := List.prefix_refl edits
  obtain ⟨hstage', hlabel'⟩ := hstage₁.replayEdits ht hfits hmovie h hconfigured hall (.inr rfl)
    (fun _ hm => (List.not_mem_nil hm).elim) hrest
  refine ⟨hstage'.mono fun id hid => ?_, ?_⟩
  · rw [List.map_cons, List.mem_cons] at hid
    exact iff_of_true trivial (hid.imp_left .inr)
  · rw [hlabel', hlabel₁, Relabelling.pass]

/-- **What a pass has to leave behind**: the movie is repaired when it has a row, no other message
of its range is in conflict, and every row has the label of its caption. -/
theorem Stage.repaired_iff (ht : t.Sound) (hfits : t.PostersFit) (hmovie : movie ∈ t.movies)
    (h : Reassigned parser t movie poster edits)
    (hconfigured : getInt configured = .ok (some movie.archiveChannelId))
    (hstage : Stage t u movie poster edits done)
    (hcalls : (poster :: edits).foldlM (replayNow parser configured movie.archiveChannelId) u =
      .ok u') :
    u'.Repaired movie edits ↔ edits ≠ [] ∧
      (∀ s ∈ t.snapshotsUpTo movie (t.rangeStop movie), s.conflicted →
        s.messageId ∈ (poster :: edits).map ArchiveMessage.messageId) ∧
      ∀ id ∈ edits.map ArchiveMessage.messageId,
        u'.label movie.archiveChannelId id = captionQuality edits id := by
  obtain ⟨hstage', -⟩ := hstage.replayPass ht hfits hmovie h hconfigured hcalls
  rcases List.eq_nil_or_concat edits with hempty | ⟨before, m, hsplit⟩
  · -- a movie without a row is not indexed
    subst hempty
    obtain ⟨u₁, hcall, hrest⟩ := foldlM_cons_eq_ok.1 hcalls
    obtain rfl := Except.ok.inj hrest
    refine iff_of_false (fun hrepaired => ?_) fun h => h.1 rfl
    obtain ⟨stored, hstored, hstatus⟩ := Option.map_eq_some_iff.1 hrepaired.indexed
    have hstep := hstage.posterStep ht hfits hmovie h hconfigured hcall
    obtain ⟨row, hrow, hmovieId⟩ := (hstep.movie_eq hstored).2 hstatus
    have hmem := (h.mem_edits_iff hstage'.follows.places).2 ⟨row, hrow, hmovieId, rfl⟩
    cases hmem
  · -- the last edit decides
    rw [List.concat_eq_append] at hsplit
    obtain ⟨u₀, hposter, hedits⟩ := foldlM_cons_eq_ok.1 hcalls
    rw [hsplit] at hedits
    obtain ⟨u₁, hbefore, hlast⟩ := foldlM_append_eq_ok.1 hedits
    obtain ⟨u₂, hcall, hrest⟩ := foldlM_cons_eq_ok.1 hlast
    obtain rfl := Except.ok.inj hrest
    obtain ⟨hstage₀, -⟩ := hstage.replayPoster ht hfits hmovie h hconfigured hposter
    have hpart : [] ++ before <+: edits := ⟨[m], hsplit.symm⟩
    obtain ⟨hstage₁, -⟩ := hstage₀.replayEdits ht hfits hmovie h hconfigured hpart (.inr rfl)
      (fun _ hm => (List.not_mem_nil hm).elim) hbefore
    have hmem : m ∈ edits := hsplit ▸ List.mem_append_right _ List.mem_cons_self
    have hearlier : ∀ m' ∈ poster :: edits, m'.messageId < m.messageId →
        (done m'.messageId ∨ m'.messageId = poster.messageId) ∨
          m'.messageId ∈ before.map ArchiveMessage.messageId := by
      intro m' hm' hlt
      rcases List.mem_cons.1 hm' with rfl | hm'
      · exact .inl (.inr rfl)
      · rw [hsplit, List.mem_append, List.mem_singleton] at hm'
        rcases hm' with hm' | rfl
        · exact .inr (List.mem_map_of_mem hm')
        · exact absurd hlt (lt_irrefl _)
    have hstep := hstage₁.editStep ht hfits hmovie h hconfigured hmem hearlier hcall
    have hfollows : Follows t u₂ movie poster edits fun _ => True :=
      hstage'.follows.mono fun _ _ => .inl trivial
    rw [hstep.repaired_iff ht hfits hmovie h hmem hstage₁.ready.sound.toUniqueKeys
      hstage'.ready.sound.toUniqueKeys (hstage₁.confident (.inl (.inr rfl)))
        hstage₁.follows.places hfollows]
    exact (and_iff_right (List.ne_nil_of_mem hmem)).symm

/-! ### Two passes -/

omit [UnicodeData] in
theorem postersFit_of_fitsColumns (h : t.fitsColumns) : t.PostersFit := by
  intro movie hmovie
  have hfits := (fitsColumns_iff.1 h).2.1 movie hmovie
  simp only [Movie.fits, Bool.and_eq_true, decide_eq_true_eq] at hfits
  exact hfits.1.1.1.1

/-- Every row of the movie has its own label. -/
theorem Reassigned.injOn_label (h : Reassigned parser t movie poster edits) (ht : t.Sound)
    (hmovie : movie ∈ t.movies) : Set.InjOn (t.label movie.archiveChannelId)
      {id | id ∈ edits.map ArchiveMessage.messageId} := by
  rintro id hid id' hid' heq
  obtain ⟨row, hrow, hmovieId, rfl⟩ := (h.mem_edits_iff .refl).1 hid
  obtain ⟨row', hrow', hmovieId', rfl⟩ := (h.mem_edits_iff .refl).1 hid'
  have hlabel : t.label movie.archiveChannelId row'.archiveMessageId = some row'.quality :=
    ht.toUniqueKeys.label_eq_some.2
      ⟨row', hrow', SamePlaces.refl.channel_of_row ht.toLinked hmovie hrow' hmovieId', rfl, rfl⟩
  rw [hlabel, ht.toUniqueKeys.label_eq_some] at heq
  obtain ⟨row₀, hrow₀, hchannel, hid₀, hquality⟩ := heq
  have hrowChannel := SamePlaces.refl.channel_of_row ht.toLinked hmovie hrow hmovieId
  obtain rfl := ht.message row₀ hrow₀ row hrow (hchannel.trans hrowChannel.symm) hid₀
  rw [ht.quality row₀ hrow row' hrow' (hmovieId.trans hmovieId'.symm) hquality]

variable (parser) in
/-- **What two passes repair.**  After any calls the captions of a movie's messages are edited so
that the parser accepts them for the group of the movie, and two passes over these messages go
through with nothing else in between.  Then the movie is indexed with every row labelled as its
caption shows exactly when it has a row, no other message of its range is in conflict, and from no
row a chain of rows, each of which wants the resolution that the next one has, waits twice for a
later row. -/
theorem two_replays_repair_iff (calls : List ArchiveCall) :
    let t := Transition.run (call parser) empty calls
    ∀ movie ∈ t.movies, ∀ poster edits, Reassigned parser t movie poster edits →
      ∀ configured, getInt configured = .ok (some movie.archiveChannelId) →
        ∀ first second, first.flatten = poster :: edits → second.flatten = poster :: edits →
          ∀ t₁ t₂, t.replay parser configured movie.archiveChannelId first = .ok t₁ →
            t₁.replay parser configured movie.archiveChannelId second = .ok t₂ →
              (t₂.Repaired movie edits ↔ edits ≠ [] ∧
                (∀ s ∈ t.snapshotsUpTo movie (t.rangeStop movie), s.conflicted →
                  s.messageId ∈ (poster :: edits).map ArchiveMessage.messageId) ∧
                ∀ id ∈ edits.map ArchiveMessage.messageId,
                  ¬ Relabelling.Delayed (edits.map ArchiveMessage.messageId) (captionQuality edits)
                    (t.label movie.archiveChannelId) 2 id) := by
  intro t movie hmovie poster edits h configured hconfigured first second hfirst hsecond t₁ t₂
    hcalls
    hcalls'
  have ht : t.Sound := run_sound calls
  have hcolumns : t.fitsColumns :=
    Transition.run_invariant (I := fun t : ArchiveTables => t.fitsColumns)
      (fun _ c ht => fitsColumns_call ht c) (by decide) calls
  have hfits := postersFit_of_fitsColumns hcolumns
  have hordered := h.ordered fun m hm => h.behind ht hmovie hm
  have hdistinct : ∀ m ∈ poster :: edits, ∀ m' ∈ poster :: edits, m.messageId = m'.messageId →
      m = m' := fun m hm m' hm' => eq_of_messageId_eq hordered hm hm'
  -- the first pass
  have hstage := h.stage ht
  rw [replay_eq hstage.ready hconfigured hdistinct (hfirst ▸ fun _ hm => hm) (hfirst ▸ hordered),
    hfirst] at hcalls
  obtain ⟨hstage₁, hlabel₁⟩ := hstage.replayPass ht hfits hmovie h hconfigured hcalls
  -- the second pass
  rw [replay_eq hstage₁.ready hconfigured hdistinct (hsecond ▸ fun _ hm => hm) (hsecond ▸ hordered),
    hsecond] at hcalls'
  obtain ⟨-, hlabel₂⟩ := hstage₁.replayPass ht hfits hmovie h hconfigured hcalls'
  have hpasses : t₂.label movie.archiveChannelId = Relabelling.passes
      (edits.map ArchiveMessage.messageId) (captionQuality edits) 2
        (t.label movie.archiveChannelId) := by
    rw [hlabel₂, hlabel₁]
    rfl
  have hrows : (edits.map ArchiveMessage.messageId).Pairwise (· < ·) :=
    List.pairwise_map.2 h.ascending
  rw [hstage₁.repaired_iff ht hfits hmovie h hconfigured hcalls', hpasses]
  refine and_congr_right fun _ => and_congr_right fun _ => forall₂_congr fun id hid => ?_
  exact Relabelling.passes_eq_target_iff hrows (h.injOn_captionQuality ht hfits hmovie)
    (h.injOn_label ht hmovie) hid 1

end

/-! ### A swap and a shift -/

section Runs

attribute [local instance] UnicodeData.asciiArabic

/-- Two files of one movie. -/
def publishedPair : List ArchiveCall :=
  publish [samplePoster 1, sampleVideo 2 "Up 480p".toList, sampleVideo 3 "Up 720p".toList]

/-- Each file gets the resolution of the other. -/
def swappedPair : List ArchiveMessage :=
  [sampleVideo 2 "Up 720p".toList, sampleVideo 3 "Up 480p".toList]

/-- The first file gets the resolution of the second one, and the second one another. -/
def shiftedPair : List ArchiveMessage :=
  [sampleVideo 2 "Up 720p".toList, sampleVideo 3 "Up 1080p".toList]

/-- Edits of a movie none of whose messages was edited before. -/
theorem reassigned_of_unedited [UnicodeData] {parser : ArchiveParser} {t : ArchiveTables}
    {movie : Movie} {poster : ArchiveMessage} {edits : List ArchiveMessage}
    (hposter : poster.messageId = movie.posterMessageId)
    (hascending : edits.Pairwise fun m m' => m.messageId < m'.messageId)
    (hattached : (t.movieQualities movie.id).map MovieQuality.archiveMessageId =
      edits.map ArchiveMessage.messageId)
    (hunedited : ∀ m ∈ poster :: edits, ((t.snapshot? movie.archiveChannelId m.messageId).bind
      ArchiveMessageSnapshot.editedAt) = none)
    (haccepted : ((parser.iterGroups (some 32) ((t.withContents movie.archiveChannelId
      (poster :: edits)).movieMessages movie none)).next.toOption.join).any fun group =>
        group.posterMessageId = movie.posterMessageId &&
          edits.all fun m => group.qualities.any fun item => item.messageId = m.messageId) :
    Reassigned parser t movie poster edits := by
  refine ⟨hposter, hascending, fun id => ?_, fun m hm s hs recorded hrecorded => ?_, ?_⟩
  · rw [← hattached, List.mem_map]
  · have hnone := hunedited m hm
    rw [hs, Option.bind_some, hrecorded] at hnone
    cases hnone
  · cases hnext : (parser.iterGroups (some 32) ((t.withContents movie.archiveChannelId
        (poster :: edits)).movieMessages movie none)).next with
    | error error =>
        rw [hnext] at haccepted
        cases haccepted
    | ok next =>
        rw [hnext] at haccepted
        obtain ⟨group, rfl, hgroup⟩ := (Option.any_eq_true _ _).1 haccepted
        obtain ⟨hposterId, hall⟩ := Bool.and_eq_true_iff.1 hgroup
        refine ⟨group, rfl, of_decide_eq_true hposterId, fun m hm => ?_⟩
        obtain ⟨item, hitem, hid⟩ := List.any_eq_true.1 (List.all_eq_true.1 hall m hm)
        exact ⟨item, hitem, of_decide_eq_true hid⟩

theorem exists_ok_of_bind {α β ε : Type*} {x : Except ε α} {f : α → Except ε β}
    (h : (x.bind f).isOk) : ∃ a b, x = .ok a ∧ f a = .ok b := by
  cases x with
  | error error => cases h
  | ok a =>
      cases hfa : f a with
      | error error =>
          rw [Except.bind, hfa] at h
          cases h
      | ok b => exact ⟨a, b, rfl, hfa⟩

/-- A shift is repaired: the first row waits for the second one, and that one for nobody. -/
theorem two_replays_repair_shiftedPair :
    let t := Transition.run (call {}) empty publishedPair
    ∃ movie t₁ t₂, t.movies.find? 1 = some movie ∧
      t.replay {} (some (.int 7)) 7 [samplePoster 1 :: shiftedPair] = .ok t₁ ∧
      t₁.replay {} (some (.int 7)) 7 [samplePoster 1 :: shiftedPair] = .ok t₂ ∧
      t₂.Repaired movie shiftedPair := by
  intro t
  have hpair : ∃ movie, t.movies.find? 1 = some movie ∧
      Reassigned {} t movie (samplePoster 1) shiftedPair ∧
      movie.archiveChannelId = 7 ∧
      (∀ s ∈ t.snapshotsUpTo movie (t.rangeStop movie), s.conflicted = false) ∧
      t.label 7 2 ≠ captionQuality shiftedPair 3 :=
    ⟨_, rfl, reassigned_of_unedited (by decide +kernel) (by decide +kernel) (by decide +kernel)
      (by decide +kernel) (by decide +kernel), by decide +kernel, by decide +kernel,
      by decide +kernel⟩
  have hruns : ((t.replay {} (some (.int 7)) 7 [samplePoster 1 :: shiftedPair]).bind fun t₁ =>
      t₁.replay {} (some (.int 7)) 7 [samplePoster 1 :: shiftedPair]).isOk := by decide +kernel
  obtain ⟨movie, hmovie, hedits, hchannel, hnone, hfree⟩ := hpair
  obtain ⟨t₁, t₂, hfirst, hsecond⟩ := exists_ok_of_bind hruns
  have hrepaired := two_replays_repair_iff {} publishedPair movie (KeyedTable.mem_of_find? hmovie)
    (samplePoster 1) shiftedPair hedits (some (.int 7)) (by rw [hchannel]; rfl)
      [samplePoster 1 :: shiftedPair] [samplePoster 1 :: shiftedPair] rfl rfl t₁ t₂
  rw [hchannel] at hrepaired
  -- the first message waits for the second, whose new label is free
  have hwaits : ∀ i j, Relabelling.Waits [2, 3] (captionQuality shiftedPair)
      (t.label 7) i j → i = 2 ∧ j = 3 := by
    rintro i j ⟨hi, hj, hne, hlabel⟩
    simp only [List.mem_cons, List.not_mem_nil, or_false] at hi hj
    rcases hi with rfl | rfl <;> rcases hj with rfl | rfl
    · exact absurd rfl hne
    · exact ⟨rfl, rfl⟩
    · exact absurd hlabel hfree
    · exact absurd rfl hne
  refine ⟨movie, t₁, t₂, hmovie, hfirst, hsecond, (hrepaired hfirst hsecond).2
    ⟨List.cons_ne_nil _ _, fun s hs hconflicted => ?_, fun id _ => ?_⟩⟩
  · rw [hnone s hs] at hconflicted
    cases hconflicted
  · rintro ⟨a, b, -, hwait, -, a', b', hchain, hwait', -⟩
    obtain ⟨-, rfl⟩ := hwaits a b hwait
    obtain ⟨rfl, -⟩ := hwaits a' b' hwait'
    cases hchain.cases_head with
    | inl h => cases h
    | inr h =>
        obtain ⟨c, hstep, -⟩ := h
        cases (hwaits 3 c hstep).1

/-- **A swap is never repaired**: each row waits for the other one. -/
theorem swapped_resolutions_stay_ambiguous :
    let t := Transition.run (call {}) empty publishedPair
    ∃ movie t₁ t₂, t.movies.find? 1 = some movie ∧
      Reassigned {} t movie (samplePoster 1) swappedPair ∧
      (swappedPair.map fun m => captionQuality swappedPair m.messageId).Nodup ∧
      t.replay {} (some (.int 7)) 7 [samplePoster 1 :: swappedPair] = .ok t₁ ∧
      t₁.replay {} (some (.int 7)) 7 [samplePoster 1 :: swappedPair] = .ok t₂ ∧
      ¬ t₂.Repaired movie swappedPair :=
  ⟨_, _, _, rfl, reassigned_of_unedited (by decide +kernel) (by decide +kernel) (by decide +kernel)
    (by decide +kernel) (by decide +kernel), by decide +kernel, rfl, rfl,
    fun h => absurd h.indexed (by decide +kernel)⟩

end Runs

end ArchiveTables

end CineGate
