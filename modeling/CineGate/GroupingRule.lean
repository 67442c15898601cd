/-
**The archive rule, stated without the loop.**

A candidate belongs to the last poster before it unless its year contradicts that poster or the way
from the poster to it shows too much noise: a run of messages without an accepted candidate in it
that holds more than `maxNoiseMessages` messages which are neither posters nor candidates.  Of the
accepted candidates of one resolution the newest is kept.  The grouping loop implements this rule.

* `isNoise`, `Compatible` — what a message is to the rule;
* `ArchiveParser.Survives`, `ArchiveParser.AcceptsAfter` — the rule for one candidate;
* `ArchiveParser.acceptsAfter_iff` — the rule in its own terms, with accepted candidates between
  runs;
* `ArchiveParser.FollowsRule` — the rule for one group;
* `ArchiveParser.parse_follows_rule` — the groups of a stream.
-/

import CineGate.GroupGrowth

set_option relaxedAutoImplicit false
set_option autoImplicit false

namespace CineGate

section

variable [UnicodeData]

/-! ### The rule -/

/-- A message that is neither a poster nor a candidate. -/
def isNoise (m : ArchiveMessage) : Bool := (detectPoster m).isNone && (detectQuality m).isNone

/-- A candidate whose year does not contradict the poster. -/
def Compatible (poster : PosterCandidate) (m : ArchiveMessage) : Prop :=
  ∃ quality, detectQuality m = some quality ∧ contradicts poster quality = false

/-- What a group keeps of a candidate that it has accepted after `before`. -/
def itemOf (poster : PosterCandidate) (before : List ArchiveMessage) (m : ArchiveMessage)
    (quality : QualityCandidate) : ParsedQuality where
  messageId := m.messageId
  quality := quality.quality
  rawCaption := m.caption.getD []
  rawTitle := quality.rawTitle
  normalizedTitle := quality.normalizedTitle
  year := quality.year
  confidence := scoreQuality poster quality (before.length + 1)

namespace ArchiveParser

variable (parser : ArchiveParser)

/-- No run of messages without a compatible candidate holds too much noise. -/
def Survives (poster : PosterCandidate) (before : List ArchiveMessage) : Prop :=
  ∀ a run c, before = a ++ run ++ c → (∀ m ∈ run, ¬Compatible poster m) →
    run.countP isNoise ≤ parser.maxNoiseMessages

/-- The candidate is accepted after `before`, the messages between the poster and it. -/
def AcceptsAfter (poster : PosterCandidate) (before : List ArchiveMessage) (m : ArchiveMessage) :
    Prop := Compatible poster m ∧ parser.Survives poster before

/-- A candidate among `seg` is accepted as `item`. -/
def AcceptsAs (poster : PosterCandidate) (seg : List ArchiveMessage) (item : ParsedQuality) :
    Prop :=
  ∃ before m after quality, seg = before ++ m :: after ∧ parser.AcceptsAfter poster before m ∧
    detectQuality m = some quality ∧ item = itemOf poster before m quality

/-- The group keeps the newest accepted candidate of each resolution, once, and is indexed when
there is one. -/
structure FollowsRule (poster : PosterCandidate) (seg : List ArchiveMessage)
    (group : ParsedMovieGroup) : Prop where
  keeps : ∀ item, item ∈ group.qualities ↔ parser.AcceptsAs poster seg item ∧
    ∀ other, parser.AcceptsAs poster seg other → other.quality = item.quality →
      other.messageId ≤ item.messageId
  once : (group.qualities.map ParsedQuality.quality).Nodup
  indexed : group.status = .indexed ↔
    ∃ before m after, seg = before ++ m :: after ∧ parser.AcceptsAfter poster before m

variable {parser} {poster : PosterCandidate} {before seg : List ArchiveMessage} {m : ArchiveMessage}

/-! ### The rule in its own terms -/

theorem Survives.of_prefix {after : List ArchiveMessage}
    (h : parser.Survives poster (before ++ after)) :
    parser.Survives poster before := by
  intro a run c hbefore hrun
  refine h a run (c ++ after) ?_ hrun
  rw [hbefore, List.append_assoc]

/-- **The rule in its own terms**: between the poster, the accepted candidates and `m` no run holds
too much noise. -/
theorem acceptsAfter_iff : parser.AcceptsAfter poster before m ↔
    Compatible poster m ∧ ∀ a run c, before = a ++ run ++ c →
      (∀ r₁ m' r₂, run = r₁ ++ m' :: r₂ → ¬parser.AcceptsAfter poster (a ++ r₁) m') →
        run.countP isNoise ≤ parser.maxNoiseMessages := by
  refine and_congr_right fun _ =>
    ⟨fun h a run c hbefore hrun => ?_, fun h a run c hbefore hrun => ?_⟩
  · refine h a run c hbefore fun m' hm' hcompatible => ?_
    -- what is compatible on a way that survives has been accepted there
    obtain ⟨r₁, r₂, hsplit⟩ := List.append_of_mem hm'
    refine hrun r₁ m' r₂ hsplit ⟨hcompatible, ?_⟩
    have hway : before = (a ++ r₁) ++ (m' :: r₂ ++ c) := by
      rw [hbefore, hsplit]
      simp
    exact Survives.of_prefix (hway ▸ h)
  · refine h a run c hbefore fun r₁ m' r₂ hsplit haccepted => ?_
    exact hrun m' (hsplit ▸ List.mem_append_right _ List.mem_cons_self) haccepted.1

/-! ### Noise at the end -/

open Classical in
/-- The noise since the last compatible candidate. -/
noncomputable def tailNoise (poster : PosterCandidate) (before : List ArchiveMessage) : ℕ :=
  (before.reverse.takeWhile fun m => ¬Compatible poster m).countP isNoise

theorem tailNoise_nil : tailNoise poster [] = 0 := rfl

theorem tailNoise_snoc_of_compatible (h : Compatible poster m) :
    tailNoise poster (before ++ [m]) = 0 := by
  simp [tailNoise, h]

theorem tailNoise_snoc_of_not (h : ¬Compatible poster m) :
    tailNoise poster (before ++ [m]) = tailNoise poster before + if isNoise m then 1 else 0 := by
  simp [tailNoise, h, List.countP_cons]

/-- The noise of a run at the end is at most that since the last compatible candidate. -/
theorem countP_le_tailNoise {a run : List ArchiveMessage} (hbefore : before = a ++ run)
    (hrun : ∀ m ∈ run, ¬Compatible poster m) : run.countP isNoise ≤ tailNoise poster before := by
  classical
  have hreverse : ∀ m ∈ run.reverse, decide (¬Compatible poster m) = true := fun m hm =>
    decide_eq_true (hrun m (List.mem_reverse.1 hm))
  rw [tailNoise, hbefore, List.reverse_append, List.takeWhile_append_of_pos hreverse,
    List.countP_append, List.countP_reverse]
  exact Nat.le_add_right _ _

/-- The noise since the last compatible candidate is that of a run at the end. -/
theorem exists_tail_run : ∃ a run, before = a ++ run ∧ (∀ m ∈ run, ¬Compatible poster m) ∧
    run.countP isNoise = tailNoise poster before := by
  classical
  have hsplit := List.takeWhile_append_dropWhile (p := fun m => decide (¬Compatible poster m))
    (l := before.reverse)
  refine ⟨(before.reverse.dropWhile fun m => ¬Compatible poster m).reverse,
    (before.reverse.takeWhile fun m => ¬Compatible poster m).reverse, ?_, fun m hm => ?_, ?_⟩
  · rw [← List.reverse_append, hsplit, List.reverse_reverse]
  · have hmem := List.mem_takeWhile_imp (List.mem_reverse.1 hm)
    exact of_decide_eq_true hmem
  · rw [List.countP_reverse, tailNoise]

theorem survives_nil : parser.Survives poster [] := by
  intro a run c hsplit _
  obtain ⟨hleft, -⟩ := List.append_eq_nil_iff.1 hsplit.symm
  rw [(List.append_eq_nil_iff.1 hleft).2]
  exact Nat.zero_le _

/-- **One more message**: only a run at the end is new. -/
theorem survives_snoc : parser.Survives poster (before ++ [m]) ↔
    parser.Survives poster before ∧ tailNoise poster (before ++ [m]) ≤ parser.maxNoiseMessages := by
  constructor
  · intro h
    obtain ⟨a, run, hsplit, hrun, hcount⟩ : ∃ a run, before ++ [m] = a ++ run ∧
        (∀ m ∈ run, ¬Compatible poster m) ∧ _ := exists_tail_run
    refine ⟨h.of_prefix, ?_⟩
    rw [← hcount]
    exact h a run [] (by rw [List.append_nil, hsplit]) hrun
  · rintro ⟨hbefore, htail⟩ a run c hsplit hrun
    rcases List.eq_nil_or_concat c with rfl | ⟨c, last, rfl⟩
    · rw [List.append_nil] at hsplit
      exact (countP_le_tailNoise hsplit hrun).trans htail
    · rw [List.concat_eq_append, ← List.append_assoc] at hsplit
      exact hbefore a run c (List.append_inj' hsplit rfl).1 hrun

/-! ### The open group -/

end ArchiveParser

namespace GroupBuilder

variable {b : GroupBuilder} {limit : Option ℕ} {parser : ArchiveParser} {m : ArchiveMessage}
  {poster : PosterCandidate} {seg : List ArchiveMessage}

omit [UnicodeData] in
@[simp] theorem messagesSincePoster_accept (parsed : ParsedQuality) :
    (b.accept limit parsed).messagesSincePoster = b.messagesSincePoster := by
  unfold accept
  split
  · rfl
  · split <;> rfl

/-- A group counts every message of its window. -/
theorem messagesSincePoster_feed :
    (b.feed limit m).messagesSincePoster = b.messagesSincePoster + 1 := by
  unfold feed
  split
  · unfold addQuality
    dsimp only
    split
    · rw [messagesSincePoster_accept]
    · split <;> rfl
  · rfl

/-- A compatible candidate is accepted, and ends the noise. -/
theorem feed_of_compatible {quality : QualityCandidate} (hquality : detectQuality m = some quality)
    (hyear : contradicts b.poster quality = false) :
    (b.feed limit m).noiseMessages = 0 ∧
      (b.feed limit m).qualities = (b.accept limit {
        messageId := m.messageId, quality := quality.quality, rawCaption := m.caption.getD [],
        rawTitle := quality.rawTitle, normalizedTitle := quality.normalizedTitle,
        year := quality.year, confidence :=
          scoreQuality b.poster quality (b.messagesSincePoster + 1) }).qualities := by
  have haccept :=
    (acceptThreshold_le_scoreQuality b.poster quality (b.messagesSincePoster + 1)).2 hyear
  have hmessage : quality.message = m := message_of_detectQuality hquality
  unfold feed
  rw [hquality]
  dsimp only
  unfold addQuality
  dsimp only
  rw [if_pos haccept, hmessage]
  refine ⟨noiseMessages_accept _, ?_⟩
  unfold accept
  dsimp only
  split
  · rfl
  · split <;> rfl

/-- Any other message leaves the qualities, and counts as noise when it is no candidate. -/
theorem feed_of_not_compatible (hposter : detectPoster m = none) (h : ¬Compatible b.poster m) :
    (b.feed limit m).noiseMessages = b.noiseMessages + (if isNoise m then 1 else 0) ∧
      (b.feed limit m).qualities = b.qualities := by
  unfold feed
  cases hquality : detectQuality m with
  | none => simp [isNoise, hposter, hquality, addNoise]
  | some quality =>
      have hyear : ¬contradicts b.poster quality = false :=
        fun hyear => h ⟨quality, hquality, hyear⟩
      have hreject := (acceptThreshold_le_scoreQuality b.poster quality
        (b.messagesSincePoster + 1)).not.2 hyear
      unfold addQuality
      dsimp only
      rw [if_neg hreject]
      split <;> simp [isNoise, hposter, hquality]

/-- The counters of a group that is still open. -/
structure Counts (b : GroupBuilder) (poster : PosterCandidate) (seg : List ArchiveMessage) :
    Prop where
  noise : b.noiseMessages = ArchiveParser.tailNoise poster seg
  since : b.messagesSincePoster = seg.length

/-- **The loop invariant**: the group is open while the way survives, and then its counters are
those of the way. -/
theorem grow_counts (hseg : ∀ m ∈ seg, detectPoster m = none) :
    ((({ poster } : GroupBuilder).grow parser none seg).isClosed parser = false ↔
        parser.Survives poster seg) ∧
      ((({ poster } : GroupBuilder).grow parser none seg).isClosed parser = false →
        (({ poster } : GroupBuilder).grow parser none seg).Counts poster seg) := by
  induction seg using List.reverseRecOn with
  | nil =>
      refine ⟨⟨fun _ => ArchiveParser.survives_nil, fun _ => isClosed_poster poster⟩, fun _ => ?_⟩
      exact ⟨ArchiveParser.tailNoise_nil.symm, rfl⟩
  | append_singleton seg m ih =>
      obtain ⟨hopen, hcounts⟩ := ih fun m hm => hseg m (List.mem_append_left _ hm)
      have hm : detectPoster m = none := hseg m (List.mem_append_right _ List.mem_cons_self)
      rw [grow_append, grow_cons, grow_nil, ArchiveParser.survives_snoc, ← hopen]
      have hposter : (({ poster } : GroupBuilder).grow parser none seg).poster = poster :=
        poster_grow
      generalize ({ poster } : GroupBuilder).grow parser none seg = b at hopen hcounts hposter ⊢
      cases hclosed : b.isClosed parser with
      | true =>
          rw [feedOpen_of_isClosed hclosed, hclosed]
          simp
      | false =>
          obtain ⟨hnoise, hsince⟩ := hcounts hclosed
          rw [feedOpen_of_open hclosed]
          have hfed : (b.feed none m).Counts poster (seg ++ [m]) := by
            refine ⟨?_, by rw [messagesSincePoster_feed, hsince, List.length_append]; rfl⟩
            by_cases hcompatible : Compatible poster m
            · obtain ⟨quality, hquality, hyear⟩ := hcompatible
              rw [(feed_of_compatible hquality (hposter.symm ▸ hyear)).1,
                ArchiveParser.tailNoise_snoc_of_compatible ⟨quality, hquality, hyear⟩]
            · rw [(feed_of_not_compatible hm (hposter.symm ▸ hcompatible)).1,
                ArchiveParser.tailNoise_snoc_of_not hcompatible, hnoise]
          refine ⟨?_, fun _ => hfed⟩
          rw [isClosed, hfed.noise, decide_eq_false_iff_not, not_lt]
          simp

end GroupBuilder

namespace ArchiveParser

variable {parser : ArchiveParser} {poster : PosterCandidate} {before seg : List ArchiveMessage}
  {m : ArchiveMessage} {item : ParsedQuality}

/-! ### What a group keeps -/

/-- One more message: what was accepted before, and the message itself. -/
theorem acceptsAs_snoc : parser.AcceptsAs poster (seg ++ [m]) item ↔
    parser.AcceptsAs poster seg item ∨ ∃ quality, parser.AcceptsAfter poster seg m ∧
      detectQuality m = some quality ∧ item = itemOf poster seg m quality := by
  constructor
  · rintro ⟨before, m', after, quality, hsplit, haccepted, hquality, hitem⟩
    rcases List.eq_nil_or_concat after with rfl | ⟨after, last, rfl⟩
    · obtain ⟨rfl, hm⟩ := List.append_inj' hsplit rfl
      obtain rfl : m = m' := List.head_eq_of_cons_eq hm
      exact .inr ⟨quality, haccepted, hquality, hitem⟩
    · have hsplit' : seg ++ [m] = (before ++ m' :: after) ++ [last] := by
        rw [hsplit, List.concat_eq_append, List.append_assoc, List.cons_append]
      exact .inl ⟨before, m', after, quality, (List.append_inj' hsplit' rfl).1, haccepted, hquality,
        hitem⟩
  · rintro (⟨before, m', after, quality, rfl, haccepted, hquality, hitem⟩ | ⟨quality, haccepted,
      hquality, hitem⟩)
    · exact ⟨before, m', after ++ [m], quality, by simp, haccepted, hquality, hitem⟩
    · exact ⟨seg, m, [], quality, rfl, haccepted, hquality, hitem⟩

/-- An accepted item is a message of the segment. -/
theorem AcceptsAs.mem (h : parser.AcceptsAs poster seg item) :
    ∃ m ∈ seg, item.messageId = m.messageId := by
  obtain ⟨before, m, after, quality, rfl, -, -, rfl⟩ := h
  exact ⟨m, List.mem_append_right _ List.mem_cons_self, rfl⟩

omit [UnicodeData] in
theorem mem_setQuality_iff {qualities : List ParsedQuality} {new : ParsedQuality} :
    item ∈ setQuality qualities new ↔
      item = new ∨ item ∈ qualities ∧ item.quality ≠ new.quality := by
  unfold setQuality
  split
  · next hany =>
      obtain ⟨old, hold, hold_quality⟩ := List.any_eq_true.1 hany
      rw [List.mem_map]
      constructor
      · rintro ⟨item₀, hitem₀, hitem⟩
        split at hitem
        · exact .inl hitem.symm
        · next hne => exact .inr ⟨hitem ▸ hitem₀, hitem ▸ hne⟩
      · rintro (rfl | ⟨hitem, hne⟩)
        · exact ⟨old, hold, if_pos (of_decide_eq_true hold_quality)⟩
        · exact ⟨item, hitem, if_neg hne⟩
  · next hnone =>
      rw [List.mem_append, List.mem_singleton, or_comm]
      refine or_congr_right (and_iff_left_of_imp fun hitem hsame => hnone ?_).symm
      exact List.any_eq_true.2 ⟨item, hitem, decide_eq_true hsame⟩

omit [UnicodeData] in
/-- A dictionary has one entry for each key. -/
theorem nodup_setQuality {qualities : List ParsedQuality} {new : ParsedQuality}
    (h : (qualities.map ParsedQuality.quality).Nodup) :
    ((setQuality qualities new).map ParsedQuality.quality).Nodup := by
  unfold setQuality
  split
  · have hkeys : (qualities.map fun item => if item.quality = new.quality then new else item).map
        ParsedQuality.quality = qualities.map ParsedQuality.quality := by
      rw [List.map_map]
      refine List.map_congr_left fun item _ => ?_
      rw [Function.comp_apply]
      split
      · next hsame => exact hsame.symm
      · rfl
    rw [hkeys]
    exact h
  · next hnone =>
      rw [List.map_append, List.nodup_append]
      refine ⟨h, List.nodup_singleton _, fun quality hquality other hother hsame => hnone ?_⟩
      obtain ⟨item, hitem, rfl⟩ := List.mem_map.1 hquality
      rw [List.mem_map] at hother
      obtain ⟨new', hnew', rfl⟩ := hother
      rw [List.mem_singleton.1 hnew'] at hsame
      exact List.any_eq_true.2 ⟨item, hitem, decide_eq_true hsame⟩

/-- What the window has accepted: the newest candidate of each resolution. -/
structure Keeps (parser : ArchiveParser) (poster : PosterCandidate) (seg : List ArchiveMessage)
    (items : List ParsedQuality) : Prop where
  newest : ∀ item, item ∈ items ↔ parser.AcceptsAs poster seg item ∧
    ∀ other, parser.AcceptsAs poster seg other → other.quality = item.quality →
      other.messageId ≤ item.messageId
  once : (items.map ParsedQuality.quality).Nodup

/-- A message that is not accepted changes nothing. -/
theorem Keeps.ignored {items : List ParsedQuality} (h : parser.Keeps poster seg items)
    (hnot : ¬parser.AcceptsAfter poster seg m) : parser.Keeps poster (seg ++ [m]) items := by
  have hsame : ∀ item, parser.AcceptsAs poster (seg ++ [m]) item ↔
      parser.AcceptsAs poster seg item := by
    intro item
    rw [acceptsAs_snoc]
    refine or_iff_left ?_
    rintro ⟨_, haccepted, _⟩
    exact hnot haccepted
  exact ⟨fun item => by simp only [hsame]; exact h.newest item, h.once⟩

/-- An accepted message is the newest of its resolution. -/
theorem Keeps.accepted {items : List ParsedQuality} {quality : QualityCandidate}
    (h : parser.Keeps poster seg items) (hnewer : ∀ m' ∈ seg, m'.messageId < m.messageId)
    (haccepted : parser.AcceptsAfter poster seg m) (hquality : detectQuality m = some quality) :
    parser.Keeps poster (seg ++ [m]) (setQuality items (itemOf poster seg m quality)) := by
  have hsnoc : ∀ item, parser.AcceptsAs poster (seg ++ [m]) item ↔
      parser.AcceptsAs poster seg item ∨ item = itemOf poster seg m quality := by
    intro item
    rw [acceptsAs_snoc]
    refine or_congr_right ⟨?_, fun hitem => ⟨quality, haccepted, hquality, hitem⟩⟩
    rintro ⟨quality', _, hquality', hitem⟩
    rw [hquality] at hquality'
    cases hquality'
    exact hitem
  refine ⟨fun item => ?_, nodup_setQuality h.once⟩
  rw [mem_setQuality_iff]
  constructor
  · rintro (rfl | ⟨hitem, hne⟩)
    · refine ⟨(hsnoc _).2 (.inr rfl), fun other hother _ => ?_⟩
      rcases (hsnoc other).1 hother with hother | rfl
      · obtain ⟨m', hm', hid⟩ := hother.mem
        rw [hid]
        exact (hnewer m' hm').le
      · exact le_rfl
    · obtain ⟨haccepts, hnewest⟩ := (h.newest item).1 hitem
      refine ⟨(hsnoc _).2 (.inl haccepts), fun other hother hsame => ?_⟩
      rcases (hsnoc other).1 hother with hother | rfl
      · exact hnewest other hother hsame
      · exact absurd hsame.symm hne
  · rintro ⟨haccepts, hnewest⟩
    rcases (hsnoc item).1 haccepts with haccepts | rfl
    · refine .inr ⟨(h.newest item).2 ⟨haccepts, fun other hother =>
        hnewest other ((hsnoc other).2 (.inl hother))⟩, fun hsame => ?_⟩
      -- the new message is newer than what holds its resolution
      obtain ⟨m', hm', hid⟩ := haccepts.mem
      have hle := hnewest _ ((hsnoc _).2 (.inr rfl)) hsame.symm
      exact absurd (hid ▸ hle) (not_le.2 (hnewer m' hm'))
    · exact .inl rfl

/-- **The dictionary of the loop keeps what the rule says.** -/
theorem windowItems_keeps (hseg : ∀ m ∈ seg, detectPoster m = none)
    (hasc : (seg.map ArchiveMessage.messageId).Pairwise (· < ·)) :
    parser.Keeps poster seg (parser.windowItems (poster, seg)) := by
  induction seg using List.reverseRecOn with
  | nil =>
      refine ⟨fun item => ⟨fun h => (by cases h), fun h => ?_⟩, List.nodup_nil⟩
      obtain ⟨m, hm, -⟩ := h.1.mem
      cases hm
  | append_singleton seg m ih =>
      rw [List.map_append, List.pairwise_append] at hasc
      obtain ⟨hasc, -, hnewer⟩ := hasc
      have hnewer : ∀ m' ∈ seg, m'.messageId < m.messageId := fun m' hm' =>
        hnewer _ (List.mem_map_of_mem hm') _ List.mem_cons_self
      have hseg' : ∀ m ∈ seg, detectPoster m = none := fun m hm =>
        hseg m (List.mem_append_left _ hm)
      have hm : detectPoster m = none := hseg m (List.mem_append_right _ List.mem_cons_self)
      have hkeeps := ih hseg' hasc
      obtain ⟨hopen, hcounts⟩ :
          ((({ poster } : GroupBuilder).grow parser none seg).isClosed parser = false ↔
            parser.Survives poster seg) ∧ _ := GroupBuilder.grow_counts hseg'
      have hposter : (({ poster } : GroupBuilder).grow parser none seg).poster = poster :=
        GroupBuilder.poster_grow
      rw [windowItems, GroupBuilder.grow_append, GroupBuilder.grow_cons, GroupBuilder.grow_nil]
      rw [windowItems] at hkeeps
      dsimp only at hkeeps ⊢
      generalize ({ poster } : GroupBuilder).grow parser none seg = b at *
      -- the group is closed exactly when the window has not survived so far
      cases hclosed : b.isClosed parser with
      | true =>
          rw [GroupBuilder.feedOpen_of_isClosed hclosed]
          refine hkeeps.ignored fun haccepted => ?_
          rw [hopen.2 haccepted.2] at hclosed
          cases hclosed
      | false =>
          rw [GroupBuilder.feedOpen_of_open hclosed]
          by_cases hcompatible : Compatible poster m
          · have haccepted : parser.AcceptsAfter poster seg m := ⟨hcompatible, hopen.1 hclosed⟩
            obtain ⟨quality, hquality, hyear⟩ := hcompatible
            -- the stream ascends, so the new item replaces the one with its resolution
            have hold : ∀ item ∈ b.qualities, item.messageId < m.messageId := by
              intro item hitem
              obtain ⟨m', hm', hid⟩ := ((hkeeps.newest item).1 hitem).1.mem
              rw [hid]
              exact hnewer m' hm'
            have hitems : (b.feed none m).qualities =
                setQuality b.qualities (itemOf poster seg m quality) := by
              rw [(GroupBuilder.feed_of_compatible hquality (hposter.symm ▸ hyear)).2,
                (hcounts hclosed).since, hposter]
              exact GroupBuilder.qualities_accept hold
            rw [hitems]
            exact hkeeps.accepted hnewer haccepted hquality
          · rw [(GroupBuilder.feed_of_not_compatible hm (hposter.symm ▸ hcompatible)).2]
            exact hkeeps.ignored fun haccepted => hcompatible haccepted.1

/-- What is accepted is accepted as an item. -/
theorem AcceptsAfter.acceptsAs {after : List ArchiveMessage}
    (h : parser.AcceptsAfter poster before m) :
    ∃ item, parser.AcceptsAs poster (before ++ m :: after) item := by
  obtain ⟨quality, hquality, -⟩ := h.1
  exact ⟨_, before, m, after, quality, rfl, h, hquality, rfl⟩

/-- Of the accepted items of one resolution there is a newest. -/
theorem AcceptsAs.exists_newest (h : parser.AcceptsAs poster seg item) :
    ∃ newest, parser.AcceptsAs poster seg newest ∧ newest.quality = item.quality ∧
      item.messageId ≤ newest.messageId ∧ ∀ other, parser.AcceptsAs poster seg other →
        other.quality = newest.quality → other.messageId ≤ newest.messageId := by
  by_contra hnone
  push Not at hnone
  -- otherwise there are accepted items of the resolution with ever larger ids
  have hclimb : ∀ n, ∃ item', parser.AcceptsAs poster seg item' ∧ item'.quality = item.quality ∧
      item.messageId + n ≤ item'.messageId := by
    intro n
    induction n with
    | zero => exact ⟨item, h, rfl, le_rfl⟩
    | succ n ih =>
        obtain ⟨item', hitem', hquality, hle⟩ := ih
        obtain ⟨other, hother, hsame, hlt⟩ := hnone item' hitem' hquality (by omega)
        exact ⟨other, hother, hsame.trans hquality, by omega⟩
  obtain ⟨item', hitem', -, hle⟩ := hclimb ((seg.map ArchiveMessage.messageId).max?.getD 0 + 1)
  obtain ⟨m, hm, hid⟩ := hitem'.mem
  have hmax : m.messageId ≤ (seg.map ArchiveMessage.messageId).max?.getD 0 :=
    List.le_max?_getD_of_mem (List.mem_map_of_mem hm)
  omega

/-- **The group of a window follows the rule.** -/
theorem groupOf_follows_rule (hseg : ∀ m ∈ seg, detectPoster m = none)
    (hasc : (seg.map ArchiveMessage.messageId).Pairwise (· < ·)) :
    parser.FollowsRule poster seg (parser.groupOf none (poster, seg)) := by
  have hkeeps : parser.Keeps poster seg (parser.windowItems (poster, seg)) :=
    windowItems_keeps hseg hasc
  have hperm :
      (parser.groupOf none (poster, seg)).qualities.Perm (parser.windowItems (poster, seg)) :=
    parser.qualities_groupOf (poster, seg)
  refine ⟨fun item => hperm.mem_iff.trans (hkeeps.newest item),
    ((hperm.map _).nodup_iff).2 hkeeps.once, ?_⟩
  rw [parser.status_groupOf]
  constructor
  · intro hne
    obtain ⟨item, hitem⟩ := List.exists_mem_of_ne_nil _ hne
    obtain ⟨before, m, after, -, hsplit, haccepted, -⟩ := ((hkeeps.newest item).1 hitem).1
    exact ⟨before, m, after, hsplit, haccepted⟩
  · rintro ⟨before, m, after, rfl, haccepted⟩
    obtain ⟨item, hitem⟩ := haccepted.acceptsAs
    obtain ⟨newest, haccepts, -, -, hmax⟩ := hitem.exists_newest
    exact List.ne_nil_of_mem ((hkeeps.newest newest).2 ⟨haccepts, hmax⟩)

/-! ### The groups of a stream -/

theorem map_posterMessageId_movieWindows {ms : List ArchiveMessage} {limit : Option ℕ} :
    ((movieWindows ms).map (parser.groupOf limit)).map ParsedMovieGroup.posterMessageId =
      (ms.filter fun m => (detectPoster m).isSome).map ArchiveMessage.messageId := by
  induction ms with
  | nil => rfl
  | cons m ms ih =>
      rw [movieWindows]
      cases hposter : detectPoster m with
      | none => rw [List.filter_cons_of_neg (by simp [hposter])]; exact ih
      | some poster =>
          have hid : (parser.groupOf limit (poster, segment ms)).posterMessageId = m.messageId := by
            rw [groupOf, finalizeGroup, GroupBuilder.poster_grow, message_of_detectPoster hposter]
          rw [List.filter_cons_of_pos (by simp [hposter])]
          simp only [List.map_cons, hid, ih]

theorem mem_movieWindows_of_poster {pre rest : List ArchiveMessage}
    (hposter : detectPoster m = some poster) :
    (poster, segment rest) ∈ movieWindows (pre ++ m :: rest) := by
  induction pre with
  | nil =>
      rw [List.nil_append, movieWindows, hposter]
      exact List.mem_cons_self
  | cons m' pre ih =>
      rw [List.cons_append, movieWindows]
      split
      · exact List.mem_cons_of_mem _ ih
      · exact ih

variable (parser) in
/-- **The grouping loop implements the rule**: a strictly ascending stream has one group for each
poster, in order, and each group follows the rule with the messages up to the next poster. -/
theorem parse_follows_rule {ms : List ArchiveMessage} (h : AscendingFrom 0 ms) :
    ∃ groups, parser.parse ms = .ok groups ∧
      groups.map ParsedMovieGroup.posterMessageId =
        (ms.filter fun m => (detectPoster m).isSome).map ArchiveMessage.messageId ∧
      (∀ pre m rest poster, ms = pre ++ m :: rest → detectPoster m = some poster →
        ∃ group ∈ groups, group.posterMessageId = m.messageId ∧
          parser.FollowsRule poster (segment rest) group) ∧
      ∀ poster before m, parser.AcceptsAfter poster before m ↔
        Compatible poster m ∧ ∀ a run c, before = a ++ run ++ c →
          (∀ r₁ m' r₂, run = r₁ ++ m' :: r₂ → ¬parser.AcceptsAfter poster (a ++ r₁) m') →
            run.countP isNoise ≤ parser.maxNoiseMessages := by
  refine ⟨_, parser.parse_eq h, map_posterMessageId_movieWindows,
    fun pre m rest poster hsplit hposter => ?_, fun _ _ _ => acceptsAfter_iff⟩
  have hmem : (poster, segment rest) ∈ movieWindows ms :=
    hsplit ▸ mem_movieWindows_of_poster hposter
  refine ⟨_, List.mem_map_of_mem hmem, ?_, groupOf_follows_rule (fun m' hm' => ?_) ?_⟩
  · rw [groupOf, finalizeGroup, GroupBuilder.poster_grow, message_of_detectPoster hposter]
  · have hnone := List.mem_takeWhile_imp hm'
    exact Option.isNone_iff_eq_none.1 hnone
  · have hsublist : (segment rest).Sublist ms := by
      rw [hsplit]
      exact (List.takeWhile_sublist _).trans
        ((List.sublist_cons_self m rest).trans (List.sublist_append_right pre _))
    exact (List.pairwise_cons.1 h).2.sublist (hsublist.map _)

end ArchiveParser

end

section

attribute [local instance] UnicodeData.asciiArabic

/-- A poster, two files of one resolution with a comment between them, and a file of another
year. -/
def mixedStream : List ArchiveMessage :=
  [{ messageId := 3, mediaKind := .photo, caption := some "الفيلم: Up\nالسنة: 2014".toList },
    { messageId := 4, mediaKind := .video, caption := some "Up 720p".toList },
    { messageId := 5, mediaKind := .other },
    { messageId := 8, mediaKind := .document, caption := some "Up 720p".toList },
    { messageId := 9, mediaKind := .video, caption := some "Up 2001 480p".toList }]

theorem parse_follows_rule_mixed : ∃ groups, ArchiveParser.parse {} mixedStream = .ok groups ∧
    groups.map ParsedMovieGroup.posterMessageId = [3] := by
  have hasc : AscendingFrom 0 mixedStream := by
    simp [AscendingFrom, mixedStream]
  obtain ⟨groups, hparse, hposters, -⟩ := ArchiveParser.parse_follows_rule {} hasc
  have hthree :
      (mixedStream.filter fun m => (detectPoster m).isSome).map ArchiveMessage.messageId = [3] := by
    decide +kernel
  exact ⟨groups, hparse, hposters.trans hthree⟩

end

end CineGate
