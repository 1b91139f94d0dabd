import ChainCoverage.Proofs.Partition.Lookup
import ChainCoverage.Proofs.Sweep.Invariant
import Mathlib.Data.Finset.Card

/-!
# The rounds of a pass over a gap

A gap is passed in rounds.  A round finds the bucket of the cursor, records the blocks from there
to the end of that bucket, or of the gap when this comes first, and moves the cursor behind them.
Here the rounds are made in machine words and every step of them is checked: a block must have a
bucket, an index must be that of a bucket and of a list, and a number that is kept in a word must
fit it.  No round fails, each moves the cursor on, and there is one for each bucket that holds a
block of the gap.  The lists that they leave are those that the same blocks leave one by one.

Main definitions:

- `Partition.meeting`: the buckets that hold a block of a gap.
- `Sweep.round?`: one checked round.
- `Sweep.Rounds`: the loop, with the number of its rounds.
- `Sweep.appendEach?`: the same gap block by block, checked as well.

Main results:

- `Sweep.exists_round`: all that a round does.
- `Sweep.rounds_of_le`: the loop ends, after one round for each bucket that meets the gap.
- `Sweep.rounds_skipTo`: the loop from any state that a sweep comes to.
-/

namespace ChainCoverage

/-! ## Buckets that meet a gap -/

/-- Whether a span holds a block from `cursor` up to but not including `stop`. -/
def Span.Meets (s : Span) (cursor stop : Nat) : Prop :=
  ∃ block ∈ s, cursor ≤ block.toNat ∧ block.toNat < stop

/-- When a span holds a block of the gap, then it holds the larger one of its own first block and
that of the gap. -/
theorem Span.meets_iff {s : Span} {cursor stop : Nat} :
    s.Meets cursor stop ↔
      max s.first.toNat cursor ≤ s.last.toNat ∧ max s.first.toNat cursor < stop := by
  constructor
  · rintro ⟨block, ⟨hfirst, hlast⟩, hlow, hhigh⟩
    rw [UInt64.le_iff_toNat_le] at hfirst hlast
    omega
  · rintro ⟨hlast, hhigh⟩
    have hblock := Block.toNat_ofNat_of_le hlast
    refine ⟨.ofNat (max s.first.toNat cursor), ?_, ?_⟩
    · rw [mem_iff, UInt64.le_iff_toNat_le, UInt64.le_iff_toNat_le, hblock]
      exact ⟨Nat.le_max_left _ _, hlast⟩
    · rw [hblock]
      exact ⟨Nat.le_max_right _ _, hhigh⟩

instance (s : Span) (cursor stop : Nat) : Decidable (s.Meets cursor stop) :=
  decidable_of_iff _ Span.meets_iff.symm

namespace Partition

/-- The buckets that hold a block from `cursor` up to but not including `stop`. -/
def meeting (p : Partition) (cursor stop : Nat) : Finset Nat :=
  (Finset.range p.size).filter fun index => (p.span index).Meets cursor stop

variable (p : Partition)

/-- A bucket meets a gap when the later start of the two is in front of the earlier end. -/
theorem mem_meeting {cursor stop index : Nat} :
    index ∈ p.meeting cursor stop ↔ index < p.size ∧
      max (p.startAt index) cursor < min (p.startAt (index + 1)) stop := by
  rw [meeting, Finset.mem_filter, Finset.mem_range]
  apply and_congr_right
  intro hindex
  have hlast := p.toNat_last_span hindex
  rw [Span.meets_iff, p.toNat_first_span hindex]
  omega

/-- A gap of no blocks meets no bucket. -/
theorem meeting_of_le {cursor stop : Nat} (hle : stop ≤ cursor) : p.meeting cursor stop = ∅ := by
  apply Finset.eq_empty_of_forall_notMem
  intro index hmem
  have hbounds := (p.mem_meeting.1 hmem).2
  omega

/-- The bucket of the cursor meets the gap, and no longer does so when the cursor stands behind
the part of the gap that this bucket holds. -/
theorem card_meeting_of_lt {cursor stop index : Nat} (hlt : cursor < stop)
    (hindex : index < p.size) (hlow : p.startAt index ≤ cursor)
    (hhigh : cursor < p.startAt (index + 1)) :
    (p.meeting cursor stop).card =
      (p.meeting (min stop (p.startAt (index + 1))) stop).card + 1 := by
  have hout : index ∉ p.meeting (min stop (p.startAt (index + 1))) stop := by
    rw [mem_meeting]
    omega
  rw [← Finset.card_insert_of_notMem hout]
  congr 1
  ext other
  rw [Finset.mem_insert, mem_meeting, mem_meeting]
  rcases Nat.lt_trichotomy other index with hbefore | rfl | hbehind
  · have hnext : p.startAt (other + 1) ≤ p.startAt index := p.startAt_mono hbefore
    omega
  · omega
  · have hnext : p.startAt (index + 1) ≤ p.startAt other := p.startAt_mono hbehind
    omega

end Partition

/-! ## One round -/

open Checked

/-- The part of a gap that the bucket of the cursor holds. -/
def BucketWords.firstPiece? (words : BucketWords) (cursor stop : Nat) : Option GapPiece := do
  let block ← toWord cursor
  let found ← words.bucketOf? block
  -- At a block that no bucket holds the pass would end and leave the rest of the gap out.
  let index ← found
  let index ← fit words.size index
  let span ← words.span? index
  let next ← add span.last.toNat 1
  return ⟨index, cursor, min stop next⟩

/-- The blocks of a piece, each of which must fit a word. -/
def GapPiece.blocks? (piece : GapPiece) : Option (List Block) :=
  (List.range' piece.start (piece.stop - piece.start)).mapM toWord

/-- Within a bucket's bounds the piece is computed without a failure. -/
theorem Partition.firstPiece?_words (p : Partition) {cursor stop index : Nat}
    (hindex : index < p.size) (hlow : p.startAt index ≤ cursor)
    (hhigh : cursor < p.startAt (index + 1)) :
    p.words.firstPiece? cursor stop =
      some ⟨index, cursor, min stop (p.startAt (index + 1))⟩ := by
  have hend : p.startAt (index + 1) ≤ p.items := p.startAt_le_items hindex
  have hfits : cursor < UInt64.size := Nat.lt_of_lt_of_le (Nat.lt_of_lt_of_le hhigh hend) p.items_le
  have hbucket : p.bucketOf? (.ofNat cursor) = some index := by
    rw [p.bucketOf?_eq_some_iff, UInt64.toNat_ofNat_of_lt' hfits]
    exact ⟨hindex, hlow, hhigh⟩
  have hlast := p.toNat_last_span hindex
  have hnext : (p.span index).last.toNat + 1 < doubleWordSize :=
    p.lt_doubleWordSize_of_le (by omega)
  have hsize : fit p.words.size index = some index := fit_of_lt hindex
  rw [BucketWords.firstPiece?, toWord_of_lt hfits]
  simp only [Option.bind_eq_bind, Option.bind_some]
  rw [p.bucketOf?_words, hbucket]
  simp only [Option.bind_some]
  rw [hsize, Option.bind_some, p.span?_words hindex, Option.bind_some, add_of_lt hnext, hlast]
  rfl

/-- Numbers of blocks are kept in words without a failure. -/
theorem Checked.mapM_toWord {numbers : List Nat} (hfits : ∀ n ∈ numbers, n < UInt64.size) :
    numbers.mapM toWord = some (numbers.map UInt64.ofNat) := by
  induction numbers with
  | nil => rfl
  | cons n numbers ih =>
    rw [List.forall_mem_cons] at hfits
    rw [List.mapM_cons, toWord_of_lt hfits.1, ih hfits.2]
    rfl

/-- The blocks of a piece are kept in words without a failure when there is a word for each. -/
theorem GapPiece.blocks?_of_le {piece : GapPiece} (hstop : piece.stop ≤ UInt64.size) :
    piece.blocks? = some piece.blocks := by
  apply mapM_toWord
  intro n hn
  have hbounds := List.mem_range'_1.1 hn
  omega

namespace Sweep

/-- Records a piece of a gap in its bucket's list, which must be there. -/
def recordPiece? (s : Sweep) (piece : GapPiece) : Option Sweep := do
  let blocks ← piece.blocks?
  let index ← fit s.recorded.size piece.bucket
  return { s with
    recorded := s.recorded.modify index (· ++ blocks)
    cursor := piece.stop }

/-- One round of the pass over the gap from the cursor up to but not including `stop`. -/
def round? (words : BucketWords) (stop : Nat) (s : Sweep) : Option Sweep := do
  let piece ← words.firstPiece? s.cursor stop
  s.recordPiece? piece

/-- A piece is recorded without a failure when its bucket has a list. -/
theorem recordPiece?_of_lt {s : Sweep} {piece : GapPiece} (hbucket : piece.bucket < s.recorded.size)
    (hstop : piece.stop ≤ UInt64.size) : s.recordPiece? piece = some (s.recordPiece piece) := by
  rw [recordPiece?, GapPiece.blocks?_of_le hstop, fit_of_lt hbucket]
  rfl

variable {p : Partition} {s : Sweep} {stop : Nat}

/-- A round does not fail, and it moves the cursor on.  What is left to do after it is the rest of
the gap, which meets one bucket less. -/
theorem exists_round (hpartition : s.partition = p) (hsize : s.recorded.size = p.size)
    (hlt : s.cursor < stop) (hstop : stop ≤ p.items) :
    ∃ next, s.round? p.words stop = some next ∧ s.cursor < next.cursor ∧ next.cursor ≤ stop ∧
      next.partition = p ∧ next.recorded.size = p.size ∧ s.skipTo stop = next.skipTo stop ∧
      (p.meeting s.cursor stop).card = (p.meeting next.cursor stop).card + 1 := by
  obtain ⟨index, hindex, hlow, hhigh, hcut⟩ := p.cutGap_of_lt hlt hstop
  have hfits : min stop (p.startAt (index + 1)) ≤ UInt64.size :=
    Nat.le_trans (Nat.min_le_left _ _) (Nat.le_trans hstop p.items_le)
  refine ⟨s.recordPiece ⟨index, s.cursor, min stop (p.startAt (index + 1))⟩, ?_,
    Nat.lt_min.2 ⟨hlt, hhigh⟩, Nat.min_le_left _ _, hpartition, ?_, ?_,
    p.card_meeting_of_lt hlt hindex hlow hhigh⟩
  · rw [round?, p.firstPiece?_words hindex hlow hhigh]
    exact recordPiece?_of_lt (hsize ▸ hindex) hfits
  · rw [recordPiece, Array.size_modify, hsize]
  · rw [skipTo, hpartition, hcut, List.foldl_cons, skipTo]
    subst hpartition
    rfl

/-! ## All rounds -/

/-- The loop: as long as the cursor stands before `stop` a round is made, which must not fail and
must move the cursor on within the gap.  The loop from the first state ends in the second, after so
many rounds. -/
inductive Rounds (words : BucketWords) (stop : Nat) : Sweep → Nat → Sweep → Prop
  | done {s : Sweep} (hstop : stop ≤ s.cursor) : Rounds words stop s 0 s
  | next {s next last : Sweep} {count : Nat} (hlt : s.cursor < stop)
      (hround : s.round? words stop = some next) (hadvance : s.cursor < next.cursor)
      (hwithin : next.cursor ≤ stop) (hrest : Rounds words stop next count last) :
      Rounds words stop s (count + 1) last

/-- The loop ends in one way only. -/
theorem Rounds.unique {words : BucketWords} {last other : Sweep} {count otherCount : Nat}
    (h : Rounds words stop s count last) (hother : Rounds words stop s otherCount other) :
    count = otherCount ∧ last = other := by
  induction h generalizing otherCount with
  | done hstop =>
    cases hother with
    | done => exact ⟨rfl, rfl⟩
    | next hlt => omega
  | next hlt hround hadvance hwithin hrest ih =>
    cases hother with
    | done hstop => omega
    | next _ hround' _ _ hrest' =>
      obtain rfl := Option.some.inj (hround.symm.trans hround')
      obtain ⟨rfl, rfl⟩ := ih hrest'
      exact ⟨rfl, rfl⟩

/-- The loop leaves the cursor at the end of the gap, or where it was when that is further. -/
theorem Rounds.cursor_eq {words : BucketWords} {last : Sweep} {count : Nat}
    (h : Rounds words stop s count last) : last.cursor = max s.cursor stop := by
  induction h with
  | done hstop => exact (Nat.max_eq_left hstop).symm
  | next _ _ _ _ _ ih => omega

/-- The loop ends, and it does so after one round for each bucket that meets the gap.  The state
that it leaves is that of the pass over the gap. -/
theorem rounds_of_le {s : Sweep} (hpartition : s.partition = p) (hsize : s.recorded.size = p.size)
    (hstop : stop ≤ p.items) :
    Rounds p.words stop s (p.meeting s.cursor stop).card (s.skipTo stop) := by
  by_cases hlt : s.cursor < stop
  · obtain ⟨next, hround, hadvance, hwithin, hpartition', hsize', hskip, hcard⟩ :=
      exists_round hpartition hsize hlt hstop
    -- The rest of the gap is shorter because the cursor was moved on.
    have hrest := rounds_of_le hpartition' hsize' hstop
    rw [hcard, hskip]
    exact .next hlt hround hadvance hwithin hrest
  · have hle : stop ≤ s.cursor := Nat.le_of_not_lt hlt
    rw [p.meeting_of_le hle, Finset.card_empty, skipTo, s.partition.cutGap_of_le hle]
    exact .done hle
termination_by stop - s.cursor
decreasing_by omega

/-! ## Block by block -/

/-- Records a block in the list of its bucket, both of which must be there. -/
def appendBlock? (words : BucketWords) (recorded : Array (Array Block)) (n : Nat) :
    Option (Array (Array Block)) := do
  let block ← toWord n
  let found ← words.bucketOf? block
  let index ← found
  let index ← fit recorded.size index
  return recorded.modify index (·.push block)

/-- Records the blocks from `cursor` up to but not including `stop` one by one. -/
def appendEach? (words : BucketWords) (recorded : Array (Array Block)) (cursor stop : Nat) :
    Option (Array (Array Block)) :=
  (List.range' cursor (stop - cursor)).foldlM (appendBlock? words) recorded

/-- A block of the chain is recorded without a failure. -/
theorem appendBlock?_of_bucketOf? {recorded : Array (Array Block)} {n index : Nat}
    (hsize : recorded.size = p.size) (hfits : n < UInt64.size)
    (hbucket : p.bucketOf? (.ofNat n) = some index) :
    appendBlock? p.words recorded n = some (recorded.modify index (·.push (.ofNat n))) := by
  have hindex : index < recorded.size := hsize ▸ (p.bounds_of_bucketOf? hbucket).1
  rw [appendBlock?, toWord_of_lt hfits]
  simp only [Option.bind_eq_bind, Option.bind_some]
  rw [p.bucketOf?_words, hbucket]
  simp only [Option.bind_some]
  rw [fit_of_lt hindex]
  rfl

/-- Blocks of the chain are recorded one by one without a failure, and none is left out. -/
theorem foldlM_appendBlock? (hpartition : s.partition = p) (hsize : s.recorded.size = p.size)
    {numbers : List Nat} (hwithin : ∀ n ∈ numbers, n < p.items) :
    numbers.foldlM (appendBlock? p.words) s.recorded =
      some ((numbers.filterMap fun n => (p.bucketOf? (.ofNat n)).map (·, .ofNat n)).foldl
        recordBlock s).recorded := by
  induction numbers generalizing s with
  | nil => rfl
  | cons n numbers ih =>
    rw [List.forall_mem_cons] at hwithin
    have hle : n ≤ p.total.toNat := Nat.le_of_lt_succ hwithin.1
    have hblock := Block.toNat_ofNat_of_le hle
    obtain ⟨index, _, hbucket, _⟩ := p.exists_bucketOf?_of_le_total
      (UInt64.le_iff_toNat_le.2 (hblock ▸ hle))
    have hfits : n < UInt64.size := Nat.lt_of_lt_of_le hwithin.1 p.items_le
    have hpartition' : (s.recordBlock (index, .ofNat n)).partition = p := hpartition
    have hsize' : (s.recordBlock (index, .ofNat n)).recorded.size = p.size := by
      rw [recordBlock, Array.size_modify, hsize]
    have hrest := ih hpartition' hsize' hwithin.2
    rw [List.foldlM_cons, appendBlock?_of_bucketOf? hsize hfits hbucket, List.filterMap_cons,
      hbucket]
    exact hrest

/-- The blocks of a gap recorded one by one leave the lists that the pass over the gap leaves. -/
theorem appendEach?_of_le (hpartition : s.partition = p) (hsize : s.recorded.size = p.size)
    (hstop : stop ≤ p.items) :
    appendEach? p.words s.recorded s.cursor stop = some (s.skipTo stop).recorded := by
  have hstop' : stop ≤ s.stop := by
    rwa [Sweep.stop, hpartition]
  rw [s.skipTo_eq_skipEachTo hstop', skipEachTo, hpartition]
  apply foldlM_appendBlock? hpartition hsize
  intro n hn
  have hbounds := List.mem_range'_1.1 hn
  omega

/-! ## Every state of a sweep -/

/-- From whatever state a sweep comes to, the loop over a gap within the chain ends after one round
for each bucket that meets the gap, without a failure and with a cursor that every round moves on.
It leaves the cursor at the end of the gap, or where it was when that is further, and the lists
that the blocks of the gap leave one by one; the rest of the state it leaves alone. -/
theorem rounds_skipTo (p : Partition) (blocks : List Block) {stop : Nat}
    (hstop : stop ≤ p.total.toNat + 1) :
    let s := (start p).visitAll blocks
    BucketWords.new? p.total p.requested = some p.words ∧
      (∀ count last, Rounds p.words stop s count last ↔
        count = (p.meeting s.cursor stop).card ∧ last = s.skipTo stop) ∧
      (s.skipTo stop).cursor = max s.cursor stop ∧
      appendEach? p.words s.recorded s.cursor stop = some (s.skipTo stop).recorded ∧
      (s.skipTo stop).partition = p ∧ (s.skipTo stop).repeats = s.repeats ∧
      (s.skipTo stop).late = s.late := by
  intro s
  have h : Tracks p blocks s := tracks_visitAll p blocks
  have hrounds := rounds_of_le h.partition_eq h.size_eq hstop
  have hstop' : stop ≤ s.stop := h.stop_eq ▸ hstop
  refine ⟨p.new?_eq, ?_, hrounds.cursor_eq,
    appendEach?_of_le h.partition_eq h.size_eq hstop,
    (s.partition_skipTo hstop').trans h.partition_eq, s.repeats_skipTo hstop',
    s.late_skipTo hstop'⟩
  intro count last
  constructor
  · intro hother
    exact hother.unique hrounds
  · rintro ⟨rfl, rfl⟩
    exact hrounds

/-- The longest chain in two buckets: the gap runs through both of them, and behind its end no word
has a block. -/
theorem rounds_skipTo_last_blocks :
    let p : Partition := ⟨-1, 2, by decide⟩
    let s := (start p).visitAll [5]
    UInt64.size ≤ p.total.toNat + 1 ∧
      Rounds p.words UInt64.size s 2 (s.skipTo UInt64.size) ∧
      (s.skipTo UInt64.size).cursor = UInt64.size := by
  intro p s
  have hstop : UInt64.size ≤ p.total.toNat + 1 := by decide
  obtain ⟨_, hrounds, hcursor, _⟩ := rounds_skipTo p [5] hstop
  have hcard : 2 = (p.meeting 6 UInt64.size).card := by decide
  exact ⟨hstop, (hrounds 2 _).2 ⟨hcard, rfl⟩, hcursor⟩

end Sweep
end ChainCoverage
