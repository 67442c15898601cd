/-
**Parsing one window in place of the whole channel.**

The indexer knows the poster of a movie and reads the messages from it up to the next poster, keeps
the last diagnostics only, and stops after the first group.  Forgetting the older diagnostics
commutes with every message, so the group of the window is that of the full parse with its last
diagnostics.  What a message does depends on the messages before it alone: cut right behind it, the
window accepts it as the full parse does.

* `ParsedMovieGroup.keepLast` — a group with its last diagnostics;
* `ArchiveParser.groupOf_keepLast` — the diagnostic limit forgets the older diagnostics;
* `ArchiveParser.acceptsAs_append` — what follows a message does not matter to it;
* `ArchiveParser.iterGroups_next_of_isClosed` — a closed group is yielded before the rest is read;
* `ArchiveParser.windowed_parse_equals_full` — the window and the whole channel;
* `ArchiveTables.parseMovieGroup_keepLast` — the group that the indexer finds.
-/

import CineGate.ArchiveWindows
import CineGate.GroupingRule

set_option relaxedAutoImplicit false
set_option autoImplicit false

namespace CineGate

/-! ### The last diagnostics -/

/-- The group with its last `k` diagnostics. -/
def ParsedMovieGroup.keepLast (k : ℕ) (group : ParsedMovieGroup) : ParsedMovieGroup :=
  { group with diagnostics := group.diagnostics.rtake k }

/-- A bounded deque forgets its oldest entry. -/
theorem appendDiagnostic_rtake {k : ℕ} (hk : 0 < k) (ds : List Diagnostic) (d : Diagnostic) :
    appendDiagnostic (some k) (ds.rtake k) d = (appendDiagnostic none ds d).rtake k := by
  obtain ⟨k, rfl⟩ := Nat.exists_eq_add_one.2 hk
  simp only [appendDiagnostic]
  rw [List.rtake_concat_succ, List.rtake, List.rtake, List.length_drop]
  by_cases hlength : ds.length ≤ k
  · -- the deque is not full
    have hall : ds.length - (k + 1) = 0 := by omega
    have hall' : ds.length - k = 0 := by omega
    rw [hall, hall', List.drop_zero, Nat.sub_zero, Nat.succ_sub_succ, hall', List.drop_zero]
  · -- the oldest of `k + 1` entries goes
    have hone : ds.length - (ds.length - (k + 1)) + 1 - (k + 1) = 1 := by omega
    have hnext : ds.length - (k + 1) + 1 = ds.length - k := by omega
    have hle : 1 ≤ (ds.drop (ds.length - (k + 1))).length := by
      rw [List.length_drop]
      omega
    rw [hone, List.drop_append_of_le_length hle, List.drop_drop, hnext]

namespace GroupBuilder

/-- The open group with its last `k` diagnostics. -/
def keepLast (k : ℕ) (b : GroupBuilder) : GroupBuilder :=
  { b with diagnostics := b.diagnostics.rtake k }

variable {parser : ArchiveParser} {b : GroupBuilder} {k : ℕ}

@[simp] theorem poster_keepLast : (b.keepLast k).poster = b.poster := rfl

@[simp] theorem messagesSincePoster_keepLast :
    (b.keepLast k).messagesSincePoster = b.messagesSincePoster := rfl

theorem accept_keepLast (hk : 0 < k) (parsed : ParsedQuality) :
    (b.keepLast k).accept (some k) parsed = (b.accept none parsed).keepLast k := by
  unfold accept keepLast
  dsimp only
  split
  · rfl
  · split
    · rw [appendDiagnostic_rtake hk]
    · rw [appendDiagnostic_rtake hk]

theorem addQuality_keepLast (hk : 0 < k) (quality : QualityCandidate) :
    (b.keepLast k).addQuality (some k) quality = (b.addQuality none quality).keepLast k := by
  unfold addQuality
  simp only [poster_keepLast, messagesSincePoster_keepLast]
  by_cases haccept : acceptThreshold ≤ scoreQuality b.poster quality (b.messagesSincePoster + 1)
  · simp only [haccept, if_true]
    exact accept_keepLast (b := { b with messagesSincePoster := b.messagesSincePoster + 1 }) hk _
  · simp only [haccept, if_false]
    by_cases hambiguous :
        ambiguousThreshold ≤ scoreQuality b.poster quality (b.messagesSincePoster + 1)
    · simp only [hambiguous, if_true, keepLast, appendDiagnostic_rtake hk]
    · simp only [hambiguous, if_false, keepLast, appendDiagnostic_rtake hk]

section

variable [UnicodeData] {m : ArchiveMessage} {ms : List ArchiveMessage}

theorem feedOpen_keepLast (hk : 0 < k) :
    (b.keepLast k).feedOpen parser (some k) m = (b.feedOpen parser none m).keepLast k := by
  have hclosed : (b.keepLast k).isClosed parser = b.isClosed parser := rfl
  cases hopen : b.isClosed parser with
  | true => rw [feedOpen_of_isClosed (hclosed.trans hopen), feedOpen_of_isClosed hopen]
  | false =>
      rw [feedOpen_of_open (hclosed.trans hopen), feedOpen_of_open hopen]
      unfold feed
      cases detectQuality m with
      | none => rfl
      | some quality => exact addQuality_keepLast hk quality

/-- **Forgetting the older diagnostics commutes with the messages of a window.** -/
theorem grow_keepLast (hk : 0 < k) :
    (b.keepLast k).grow parser (some k) ms = (b.grow parser none ms).keepLast k := by
  induction ms generalizing b with
  | nil => rfl
  | cons m ms ih => rw [grow_cons, grow_cons, feedOpen_keepLast hk, ih]

end

end GroupBuilder

namespace ArchiveParser

variable [UnicodeData] {parser : ArchiveParser} {poster : PosterCandidate} {item : ParsedQuality}
  {seg : List ArchiveMessage} {m : ArchiveMessage} {k : ℕ}

theorem groupOf_keepLast (hk : 0 < k) (window : PosterCandidate × List ArchiveMessage) :
    parser.groupOf (some k) window = (parser.groupOf none window).keepLast k := by
  have hempty : ({ poster := window.1 } : GroupBuilder).keepLast k = { poster := window.1 } := by
    simp [GroupBuilder.keepLast]
  rw [groupOf, ← hempty, GroupBuilder.grow_keepLast hk]
  rfl

/-! ### A window that is cut -/

/-- **What follows a message does not matter to it.** -/
theorem acceptsAs_append {after : List ArchiveMessage}
    (h : ∀ m ∈ after, item.messageId ≠ m.messageId) :
    parser.AcceptsAs poster (seg ++ after) item ↔ parser.AcceptsAs poster seg item := by
  induction after using List.reverseRecOn with
  | nil => rw [List.append_nil]
  | append_singleton after m ih =>
      have hrest : ∀ m ∈ after, item.messageId ≠ m.messageId := fun m' hm' =>
        h m' (List.mem_append_left _ hm')
      rw [← List.append_assoc, acceptsAs_snoc, ih hrest]
      refine or_iff_left ?_
      rintro ⟨quality, -, -, rfl⟩
      exact h m (List.mem_append_right _ List.mem_cons_self) rfl

/-- A group that stops behind `m` holds it when the whole window accepts it. -/
theorem mem_groupOf_cut {before after : List ArchiveMessage}
    (hseg : ∀ m' ∈ before ++ m :: after, detectPoster m' = none)
    (hasc : ((before ++ m :: after).map ArchiveMessage.messageId).Pairwise (· < ·))
    (hid : item.messageId = m.messageId) :
    item ∈ (parser.groupOf none (poster, before ++ [m])).qualities ↔
      parser.AcceptsAs poster (before ++ m :: after) item := by
  have hsplit : before ++ m :: after = (before ++ [m]) ++ after := by simp
  rw [hsplit] at hseg hasc ⊢
  rw [List.map_append, List.pairwise_append] at hasc
  obtain ⟨hasc, -, hlater⟩ := hasc
  have hrule : parser.FollowsRule poster (before ++ [m])
      (parser.groupOf none (poster, before ++ [m])) :=
    groupOf_follows_rule (fun m' hm' => hseg m' (List.mem_append_left _ hm')) hasc
  have hother : ∀ m' ∈ after, item.messageId ≠ m'.messageId := by
    intro m' hm'
    have hlt := hlater m.messageId (List.mem_map_of_mem (by simp)) _ (List.mem_map_of_mem hm')
    omega
  rw [hrule.keeps, acceptsAs_append hother]
  refine and_iff_left_of_imp fun _ other hother _ => ?_
  -- the last message is the newest
  obtain ⟨m', hm', hid'⟩ := hother.mem
  rw [List.map_append, List.pairwise_append] at hasc
  rcases List.mem_append.1 hm' with hm' | hm'
  · have hlt := hasc.2.2 _ (List.mem_map_of_mem hm') m.messageId (by simp)
    omega
  · rw [List.mem_singleton.1 hm'] at hid'
    omega

/-- An accepted message stays in the group unless a newer one of its resolution does. -/
theorem FollowsRule.mem_iff {group : ParsedMovieGroup} (h : parser.FollowsRule poster seg group) :
    item ∈ group.qualities ↔ parser.AcceptsAs poster seg item ∧ ∀ newer ∈ group.qualities,
      newer.quality = item.quality → newer.messageId ≤ item.messageId := by
  rw [h.keeps]
  refine and_congr_right fun haccepts => ⟨fun hnewest newer hnewer hsame => ?_,
    fun hkept other hother hsame => ?_⟩
  · exact hnewest newer ((h.keeps newer).1 hnewer).1 hsame
  · obtain ⟨newest, hnewest, hquality, hle, hmax⟩ := hother.exists_newest
    exact hle.trans (hkept newest ((h.keeps newest).2 ⟨hnewest, hmax⟩) (hquality.trans hsame))

/-! ### The rest of the channel -/

/-- The loop yields its open group as soon as the noise closes it. -/
theorem loop_next_of_isClosed {limit : Option ℕ} {b : GroupBuilder} {bound : ℕ}
    (hopen : b.isClosed parser = false) (hasc : AscendingFrom bound seg)
    (hseg : ∀ m ∈ seg, detectPoster m = none) (hclosed : (b.grow parser limit seg).isClosed parser)
    (rest : List ArchiveMessage) :
    (parser.loop limit (some b) bound (seg ++ rest)).next =
      .ok (some (finalizeGroup (b.grow parser limit seg))) := by
  induction seg generalizing b bound with
  | nil =>
      rw [GroupBuilder.grow_nil, hopen] at hclosed
      cases hclosed
  | cons m seg ih =>
      obtain ⟨hlt, hasc⟩ := hasc.tail
      have hnone : detectPoster m = none := hseg m List.mem_cons_self
      have hseg : ∀ m ∈ seg, detectPoster m = none := fun m' hm' =>
        hseg m' (List.mem_cons_of_mem m hm')
      rw [GroupBuilder.grow_cons, GroupBuilder.feedOpen_of_open hopen] at hclosed ⊢
      rw [List.cons_append, loop, if_neg (not_le.2 hlt), hnone]
      unfold GroupBuilder.feed at hclosed ⊢
      cases hquality : detectQuality m with
      | some quality =>
          rw [hquality] at hclosed
          exact ih (GroupBuilder.isClosed_addQuality hopen) hasc hseg hclosed
      | none =>
          rw [hquality] at hclosed
          dsimp only at hclosed ⊢
          by_cases hnoise : parser.maxNoiseMessages < b.addNoise.noiseMessages
          · have hclosed' : b.addNoise.isClosed parser := decide_eq_true hnoise
            rw [if_pos hnoise, GroupBuilder.grow_of_isClosed hclosed']
            rfl
          · rw [if_neg hnoise]
            exact ih (decide_eq_false hnoise) hasc hseg hclosed

/-- **A closed group is yielded before the rest is read**, whatever the rest holds. -/
theorem iterGroups_next_of_isClosed {limit : Option ℕ} (hlimit : limit ≠ some 0)
    (hposter : detectPoster m = some poster) (hasc : AscendingFrom 0 (m :: seg))
    (hseg : ∀ m ∈ seg, detectPoster m = none)
    (hclosed : (({ poster } : GroupBuilder).grow parser limit seg).isClosed parser)
    (rest : List ArchiveMessage) :
    (parser.iterGroups limit (m :: (seg ++ rest))).next =
      .ok (some (parser.groupOf limit (poster, seg))) := by
  obtain ⟨hlt, hasc⟩ := hasc.tail
  rw [iterGroups, if_neg hlimit, loop, if_neg (not_le.2 hlt), hposter]
  exact loop_next_of_isClosed (GroupBuilder.isClosed_poster poster) hasc hseg hclosed rest

variable (parser) in
/-- **Windowed parsing equals full parsing.**  In a strictly ascending stream each poster has one
group.  From the messages up to the next poster a lazy caller gets that group with its last `k`
diagnostics; and cut right behind any of them, the message is in the group with what it carries, its
confidence among it, exactly when the whole window accepts it — so in both groups, unless a newer
message of its resolution has replaced it in the full one. -/
theorem windowed_parse_equals_full {ms : List ArchiveMessage} (h : AscendingFrom 0 ms) {k : ℕ}
    (hk : 0 < k) :
    ∃ groups, parser.parse ms = .ok groups ∧
      ∀ pre m rest poster, ms = pre ++ m :: rest → detectPoster m = some poster →
        ∃ full ∈ groups, full.posterMessageId = m.messageId ∧
          (∀ group ∈ groups, group.posterMessageId = m.messageId → group = full) ∧
          (parser.iterGroups (some k) (m :: segment rest)).next = .ok (some (full.keepLast k)) ∧
          ∀ before m' after, segment rest = before ++ m' :: after →
            ∃ cut, (parser.iterGroups (some k) (m :: (before ++ [m']))).next = .ok (some cut) ∧
              ∀ item, item.messageId = m'.messageId →
                (item ∈ cut.qualities ↔ parser.AcceptsAs poster (segment rest) item) ∧
                (item ∈ full.qualities ↔ item ∈ cut.qualities ∧ ∀ newer ∈ full.qualities,
                  newer.quality = item.quality → newer.messageId ≤ item.messageId) := by
  refine ⟨_, parser.parse_eq h, fun pre m rest poster hsplit hposter => ?_⟩
  have hmem : (poster, segment rest) ∈ movieWindows ms :=
    hsplit ▸ mem_movieWindows_of_poster hposter
  have hid : (parser.groupOf none (poster, segment rest)).posterMessageId = m.messageId := by
    rw [groupOf, finalizeGroup, GroupBuilder.poster_grow, message_of_detectPoster hposter]
  have hnone : ∀ m' ∈ segment rest, detectPoster m' = none := by
    intro m' hm'
    have hnone := List.mem_takeWhile_imp hm'
    exact Option.isNone_iff_eq_none.1 hnone
  have hsublist : (m :: segment rest).Sublist ms := by
    rw [hsplit]
    exact ((List.takeWhile_sublist _).cons_cons m).trans (List.sublist_append_right pre _)
  have hwindow : AscendingFrom 0 (m :: segment rest) :=
    h.sublist ((hsublist.map ArchiveMessage.messageId).cons_cons 0)
  -- any part of the window that begins with the poster has one group
  have hnext : ∀ seg : List ArchiveMessage, seg.Sublist (segment rest) →
      (parser.iterGroups (some k) (m :: seg)).next =
        .ok (some ((parser.groupOf none (poster, seg)).keepLast k)) := by
    intro seg hseg
    have hasc : AscendingFrom 0 (m :: seg) :=
      hwindow.sublist (((hseg.cons_cons m).map ArchiveMessage.messageId).cons_cons 0)
    have hwindows : movieWindows ([] ++ m :: seg) = movieWindows [] ++ [(poster, seg)] :=
      movieWindows_opened hposter fun m' hm' => hnone m' (hseg.subset hm')
    have hlimit : (some k : Option ℕ) ≠ some 0 := by simp [hk.ne']
    rw [List.nil_append, movieWindows, List.nil_append] at hwindows
    rw [iterGroups_next hasc hlimit, hwindows, List.head?_cons, Option.map_some,
      groupOf_keepLast hk]
  have hasc : ((segment rest).map ArchiveMessage.messageId).Pairwise (· < ·) :=
    (List.pairwise_cons.1 hwindow.tail.2).2
  have hrule : parser.FollowsRule poster (segment rest)
      (parser.groupOf none (poster, segment rest)) := groupOf_follows_rule hnone hasc
  refine ⟨_, List.mem_map_of_mem hmem, hid, fun group hgroup hsame => ?_,
    hnext _ (List.Sublist.refl _), fun before m' after hcut => ?_⟩
  · -- the posters of an ascending stream have different ids
    have hnodup : (((movieWindows ms).map (parser.groupOf none)).map
        ParsedMovieGroup.posterMessageId).Nodup := by
      rw [map_posterMessageId_movieWindows]
      have hids := (List.pairwise_cons.1 h).2.sublist
        ((List.filter_sublist (p := fun m => (detectPoster m).isSome)).map ArchiveMessage.messageId)
      exact hids.imp fun hlt => hlt.ne
    exact List.inj_on_of_nodup_map hnodup hgroup (List.mem_map_of_mem hmem) (hsame.trans hid.symm)
  · have hprefix : (before ++ [m']).Sublist (segment rest) := by
      rw [hcut]
      exact ((List.nil_sublist after).cons_cons m').append_left before
    refine ⟨_, hnext _ hprefix, fun item hitem => ?_⟩
    have hiff : item ∈ (parser.groupOf none (poster, before ++ [m'])).qualities ↔
        parser.AcceptsAs poster (segment rest) item := by
      rw [hcut] at hnone hasc ⊢
      exact mem_groupOf_cut hnone hasc hitem
    exact ⟨hiff, hrule.mem_iff.trans (and_congr_left' hiff.symm)⟩

end ArchiveParser

/-! ### The indexer -/

namespace ArchiveTables

variable [UnicodeData] {t : ArchiveTables} {parser : ArchiveParser} {movie : Movie}

/-- **The group that the indexer finds** opens the full parse of the messages it reads. -/
theorem parseMovieGroup_keepLast {through : Option ℕ} {group : ParsedMovieGroup}
    (h : t.parseMovieGroup parser movie through = some group) :
    ∃ full groups, parser.parse (t.movieMessages movie through) = .ok (full :: groups) ∧
      group = full.keepLast 32 := by
  obtain ⟨-, poster, rest, hopens, rfl⟩ := parseMovieGroup_eq_some.1 h
  rw [ArchiveParser.parse_eq (ascending_movieMessages through), hopens.movieWindows, List.map_cons,
    ArchiveParser.groupOf_keepLast (by omega)]
  exact ⟨_, _, rfl, rfl⟩

end ArchiveTables

section

attribute [local instance] UnicodeData.asciiArabic

/-- A caller that keeps one diagnostic, on a stream whose second file replaces the first. -/
theorem windowed_parse_equals_full_mixed :
    ∃ groups, ArchiveParser.parse {} mixedStream = .ok groups ∧
    ∃ full ∈ groups, full.posterMessageId = 3 ∧
      (ArchiveParser.iterGroups {} (some 1) mixedStream).next = .ok (some (full.keepLast 1)) := by
  have hasc : AscendingFrom 0 mixedStream := by
    simp [AscendingFrom, mixedStream]
  obtain ⟨groups, hparse, hgroups⟩ := ArchiveParser.windowed_parse_equals_full {} hasc Nat.one_pos
  have hposter : (detectPoster (mixedStream.head (by simp [mixedStream]))).isSome := by
    decide +kernel
  obtain ⟨poster, hposter⟩ := Option.isSome_iff_exists.1 hposter
  have hsegment : segment mixedStream.tail = mixedStream.tail := by decide +kernel
  obtain ⟨full, hfull, hid, -, hnext, -⟩ := hgroups [] _ mixedStream.tail poster rfl hposter
  rw [hsegment] at hnext
  exact ⟨groups, hparse, full, hfull, hid, hnext⟩

end

end CineGate
