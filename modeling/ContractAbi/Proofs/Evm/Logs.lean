import ContractAbi.Proofs.Evm.Comparisons
import ContractAbi.Proofs.Evm.EventTopics
import ContractAbi.Proofs.Evm.Mutability
import ContractAbi.Proofs.Text.HexPairs

/-!
# Constants that logs take

A log takes the last constant of 32 bytes in front of it, unless a jump destination or another log
stands between the two. Of the places where a block ends these are the only ones that count.

* `Feeds`: a log takes the constant that a push leaves;
* `mem_pending_concat_iff` and `feeds_concat_iff`: what a last instruction changes;
* `Tracks`: what the scan knows of the instructions behind it, kept by each step;
* `mem_scan_iff`: a topic is found where a push feeds a log;
* `topics_fed`: the topics of a code, each once;
* `topics_leave_block`: a log may take a constant from another block.
-/

namespace ContractAbi

theorem Hex.encode0x_inj {bs bs' : Bytes} (h : encode0x bs = encode0x bs') : bs = bs' := by
  have hdigits := congrArg String.toList h
  rw [toList_encode0x, toList_encode0x] at hdigits
  exact ofBytes_inj (List.cons.inj (List.cons.inj hdigits).2).2

namespace EventTopics

variable {is done : List Instruction} {s : Scan} {i p l : Instruction} {word : Bytes} {t : String}

/-! ## Pushes and logs -/

/-- Behind these no constant from in front of them waits any more. -/
def Clears (i : Instruction) : Prop :=
  i.opcode = Opcode.jumpDest ∨ i.opcode = Opcode.push32 ∨ Opcode.isTopicLog i.opcode = true

/-- What `p` pushes waits for a log behind all the instructions. -/
structure Waits (is : List Instruction) (p : Instruction) : Prop where
  push : p.opcode = Opcode.push32
  kept : ∀ i ∈ is, p.pc < i.pc → ¬Clears i

structure Feeds (is : List Instruction) (p l : Instruction) : Prop where
  push : p.opcode = Opcode.push32
  log : Opcode.isTopicLog l.opcode = true
  before : p.pc < l.pc
  kept : ∀ i ∈ is, p.pc < i.pc → i.pc < l.pc → ¬Clears i

instance : DecidablePred Clears := fun i =>
  inferInstanceAs (Decidable (i.opcode = _ ∨ i.opcode = _ ∨ _))

instance (is : List Instruction) (p l : Instruction) : Decidable (Feeds is p l) :=
  decidable_of_iff
    (p.opcode = Opcode.push32 ∧ Opcode.isTopicLog l.opcode = true ∧ p.pc < l.pc ∧
      ∀ i ∈ is, p.pc < i.pc → i.pc < l.pc → ¬Clears i)
    ⟨fun ⟨h₁, h₂, h₃, h₄⟩ => ⟨h₁, h₂, h₃, h₄⟩, fun h => ⟨h.push, h.log, h.before, h.kept⟩⟩

theorem mem_pending_concat_iff (hdone : ∀ q ∈ done, q.pc < i.pc) :
    (∃ p ∈ done ++ [i], Waits (done ++ [i]) p ∧ p.immediate = word) ↔
      (i.opcode = Opcode.push32 ∧ i.immediate = word) ∨
        (¬Clears i ∧ ∃ p ∈ done, Waits done p ∧ p.immediate = word) := by
  constructor
  · rintro ⟨p, hp, hwaits, hword⟩
    obtain ⟨hkept, hlast⟩ := Dispatcher.forall_mem_concat.1 hwaits.kept
    rcases List.mem_append.1 hp with hp | hp
    · exact .inr ⟨hlast (hdone p hp), p, hp, ⟨hwaits.push, hkept⟩, hword⟩
    · obtain rfl := List.mem_singleton.1 hp
      exact .inl ⟨hwaits.push, hword⟩
  · rintro (⟨hpush, hword⟩ | ⟨hlast, p, hp, hwaits, hword⟩)
    · refine ⟨i, by simp, ⟨hpush, Dispatcher.forall_mem_concat.2 ⟨fun q hq hlt => ?_, ?_⟩⟩, hword⟩
      · exact absurd hlt (Nat.lt_asymm (hdone q hq))
      · exact fun hlt => absurd hlt (Nat.lt_irrefl _)
    · exact ⟨p, List.mem_append_left _ hp,
        ⟨hwaits.push, Dispatcher.forall_mem_concat.2 ⟨hwaits.kept, fun _ => hlast⟩⟩, hword⟩

/-- A last instruction takes what waits in front of it if it is a log, and leaves the logs in front
of it with what they have. -/
theorem feeds_concat_iff (hdone : ∀ q ∈ done, q.pc < i.pc) {r : Instruction → Prop} :
    (∃ p ∈ done ++ [i], ∃ l ∈ done ++ [i], Feeds (done ++ [i]) p l ∧ r p) ↔
      (∃ p ∈ done, ∃ l ∈ done, Feeds done p l ∧ r p) ∨
        (Opcode.isTopicLog i.opcode = true ∧ ∃ p ∈ done, Waits done p ∧ r p) := by
  constructor
  · rintro ⟨p, hp, l, hl, hfeeds, hr⟩
    obtain ⟨hkept, -⟩ := Dispatcher.forall_mem_concat.1 hfeeds.kept
    have hle : l.pc ≤ i.pc := by
      rcases List.mem_append.1 hl with hl | hl
      · exact Nat.le_of_lt (hdone l hl)
      · rw [List.mem_singleton.1 hl]
    have hp : p ∈ done := by
      rcases List.mem_append.1 hp with hp | hp
      · exact hp
      · have hlt := hfeeds.before
        rw [List.mem_singleton.1 hp] at hlt
        exact absurd hlt (Nat.not_lt.2 hle)
    rcases List.mem_append.1 hl with hl | hl
    · exact .inl ⟨p, hp, l, hl, ⟨hfeeds.push, hfeeds.log, hfeeds.before, hkept⟩, hr⟩
    · rw [List.mem_singleton.1 hl] at hfeeds hkept
      exact .inr ⟨hfeeds.log, p, hp,
        ⟨hfeeds.push, fun q hq hlt => hkept q hq hlt (hdone q hq)⟩, hr⟩
  · rintro (⟨p, hp, l, hl, hfeeds, hr⟩ | ⟨hlog, p, hp, hwaits, hr⟩)
    · refine ⟨p, List.mem_append_left _ hp, l, List.mem_append_left _ hl,
        { hfeeds with kept := Dispatcher.forall_mem_concat.2 ⟨hfeeds.kept, fun _ hlt => ?_⟩ }, hr⟩
      exact absurd hlt (Nat.lt_asymm (hdone l hl))
    · refine ⟨p, List.mem_append_left _ hp, i, by simp, ⟨hwaits.push, hlog, hdone p hp, ?_⟩, hr⟩
      exact Dispatcher.forall_mem_concat.2
        ⟨fun q hq hlt _ => hwaits.kept q hq hlt, fun _ hlt => absurd hlt (Nat.lt_irrefl _)⟩

/-! ## The scan -/

def record (topics : List String) (word : Bytes) : List String :=
  if isMask word || topics.contains (Hex.encode0x word) then topics
  else topics ++ [Hex.encode0x word]

theorem mem_record_iff {topics : List String} :
    t ∈ record topics word ↔ t ∈ topics ∨ (isMask word = false ∧ Hex.encode0x word = t) := by
  unfold record
  by_cases hmask : isMask word = true
  · simp [hmask]
  · by_cases hseen : Hex.encode0x word ∈ topics
    · have hout : (isMask word || topics.contains (Hex.encode0x word)) = true := by simp [hseen]
      rw [if_pos hout]
      refine ⟨.inl, ?_⟩
      rintro (ht | ⟨-, rfl⟩)
      · exact ht
      · exact hseen
    · simp [hmask, hseen, eq_comm]

theorem nodup_record {topics : List String} (h : topics.Nodup) : (record topics word).Nodup := by
  unfold record
  split
  · exact h
  · rename_i hnew
    refine List.nodup_append.2 ⟨h, List.nodup_singleton _, fun a ha b hb hab => hnew ?_⟩
    rw [hab, List.mem_singleton.1 hb] at ha
    simp [ha]

theorem step_of_dest (h : i.opcode = Opcode.jumpDest) : step s i = { s with pending := none } := by
  rw [step, if_pos h]

theorem step_of_push (h : i.opcode = Opcode.push32) :
    step s i = { s with pending := some i.immediate } := by
  rw [step, if_neg (by rw [h]; decide), if_pos h]

theorem step_of_log (h : Opcode.isTopicLog i.opcode = true) :
    step s i = ⟨(s.pending.map (record s.topics)).getD s.topics, none⟩ := by
  have hne : ∀ op, Opcode.isTopicLog op = false → i.opcode ≠ op := by
    rintro op hop rfl
    rw [hop] at h
    exact absurd h (by decide)
  rw [step, if_neg (hne _ (by decide)), if_neg (hne _ (by decide)), if_pos h]
  obtain ⟨topics, pending⟩ := s
  cases pending with
  | none => rfl
  | some word =>
      simp only [record, Option.map_some, Option.getD_some]
      split <;> rfl

theorem step_of_not_clears (h : ¬Clears i) : step s i = s := by
  unfold Clears at h
  rw [not_or, not_or] at h
  obtain ⟨hdest, hpush, hlog⟩ := h
  rw [step, if_neg hdest, if_neg hpush, if_neg hlog]

theorem pending_step_eq_some_iff : (step s i).pending = some word ↔
    (i.opcode = Opcode.push32 ∧ i.immediate = word) ∨ (¬Clears i ∧ s.pending = some word) := by
  by_cases hclears : Clears i
  · rw [or_iff_left fun h => h.1 hclears]
    rcases hclears with hdest | hpush | hlog
    · rw [step_of_dest hdest, hdest]
      refine iff_of_false nofun fun h => absurd h.1 (by decide)
    · simp [step_of_push hpush, hpush]
    · rw [step_of_log hlog]
      refine iff_of_false nofun fun h => ?_
      rw [h.1] at hlog
      exact absurd hlog (by decide)
  · have hpush : i.opcode ≠ Opcode.push32 := fun h => hclears (.inr (.inl h))
    simp [step_of_not_clears hclears, hclears, hpush]

theorem mem_topics_step_iff : t ∈ (step s i).topics ↔ t ∈ s.topics ∨
    (Opcode.isTopicLog i.opcode = true ∧
      ∃ word, s.pending = some word ∧ isMask word = false ∧ Hex.encode0x word = t) := by
  by_cases hlog : Opcode.isTopicLog i.opcode = true
  · rw [step_of_log hlog]
    cases hpending : s.pending with
    | none => simp
    | some word => simp [mem_record_iff, hlog]
  · have hsame : (step s i).topics = s.topics := by
      by_cases hdest : i.opcode = Opcode.jumpDest
      · rw [step_of_dest hdest]
      · by_cases hpush : i.opcode = Opcode.push32
        · rw [step_of_push hpush]
        · rw [step_of_not_clears (by simp [Clears, hdest, hpush, hlog])]
    simp [hsame, hlog]

theorem nodup_topics_step (h : s.topics.Nodup) : (step s i).topics.Nodup := by
  by_cases hclears : Clears i
  · rcases hclears with hdest | hpush | hlog
    · rwa [step_of_dest hdest]
    · rwa [step_of_push hpush]
    · rw [step_of_log hlog]
      cases s.pending with
      | none => exact h
      | some word => exact nodup_record h
  · rwa [step_of_not_clears hclears]

structure Tracks (done : List Instruction) (s : Scan) : Prop where
  pending : ∀ word, s.pending = some word ↔ ∃ p ∈ done, Waits done p ∧ p.immediate = word
  topics : ∀ t, t ∈ s.topics ↔ ∃ p ∈ done, ∃ l ∈ done, Feeds done p l ∧
    isMask p.immediate = false ∧ Hex.encode0x p.immediate = t
  nodup : s.topics.Nodup

theorem Tracks.step (h : Tracks done s) (hdone : ∀ q ∈ done, q.pc < i.pc) :
    Tracks (done ++ [i]) (step s i) where
  pending word := by
    rw [pending_step_eq_some_iff, mem_pending_concat_iff hdone, h.pending]
  topics t := by
    rw [mem_topics_step_iff, feeds_concat_iff hdone, h.topics]
    refine or_congr_right (and_congr_right fun _ => ?_)
    constructor
    · rintro ⟨word, hword, hr⟩
      obtain ⟨p, hp, hwaits, rfl⟩ := (h.pending word).1 hword
      exact ⟨p, hp, hwaits, hr⟩
    · rintro ⟨p, hp, hwaits, hr⟩
      exact ⟨p.immediate, (h.pending _).2 ⟨p, hp, hwaits, rfl⟩, hr⟩
  nodup := nodup_topics_step h.nodup

theorem tracks_foldl (his : is.Pairwise fun a b => a.pc < b.pc) :
    Tracks is (is.foldl EventTopics.step ⟨[], none⟩) := by
  induction is using List.reverseRecOn with
  | nil => exact ⟨by simp, by simp, List.nodup_nil⟩
  | append_singleton done i ih =>
      obtain ⟨hdone, -, hlast⟩ := List.pairwise_append.1 his
      rw [List.foldl_concat]
      exact (ih hdone).step fun q hq => hlast q hq i (List.mem_singleton_self i)

theorem tracks_scan (code : Bytes) :
    Tracks (disassemble code) ((disassemble code).foldl EventTopics.step ⟨[], none⟩) :=
  tracks_foldl ((pairwise_disassembleFrom 0 0 code).imp Instruction.pc_lt_of_next_le)

/-! ## Topics that are found -/

/-- A topic is found where some push feeds a log, and a push of ones feeds none. -/
theorem mem_scan_iff {code : Bytes} {t : String} :
    t ∈ scan code ↔ ∃ p ∈ disassemble code, ∃ l ∈ disassemble code, Feeds (disassemble code) p l ∧
      p.immediate.length = 32 ∧ p.immediate ≠ List.replicate 32 0xff ∧
      Hex.encode0x p.immediate = t := by
  have htopics : t ∈ scan code ↔ ∃ p ∈ disassemble code, ∃ l ∈ disassemble code,
      Feeds (disassemble code) p l ∧ isMask p.immediate = false ∧
      Hex.encode0x p.immediate = t := (tracks_scan code).topics t
  constructor
  · intro ht
    obtain ⟨bs, hlength, hbs⟩ := mem_scan ht
    obtain ⟨p, hp, l, hl, hfeeds, hmask, hword⟩ := htopics.1 ht
    obtain rfl : p.immediate = bs := Hex.encode0x_inj (hword.trans hbs)
    refine ⟨p, hp, l, hl, hfeeds, hlength, fun hones => ?_, hword⟩
    rw [hones] at hmask
    exact absurd hmask (by decide)
  · rintro ⟨p, hp, l, hl, hfeeds, hlength, hones, hword⟩
    refine htopics.2 ⟨p, hp, l, hl, hfeeds, ?_, hword⟩
    unfold isMask Bytes.padLeft
    rw [hlength]
    exact beq_eq_false_iff_ne.2 hones

/-- The topics of a code are different from each other. Each is written with 64 lower-case digits,
not all of them `f`. They are the constants of 32 bytes that a log behind them takes: neither a jump
destination nor another such push nor another log with a topic stands between the two. -/
theorem topics_fed {code : Bytes} (hcode : code ≠ []) :
    ∃ topics, Skeleton.topicsOfValue (.bytes code) = .ok topics ∧ topics.Nodup ∧
      (∀ t ∈ topics, ∃ digits : List Char, t = "0x" ++ String.ofList digits ∧ digits.length = 64 ∧
        (∀ d ∈ digits, d ∈ "0123456789abcdef".toList) ∧ digits ≠ List.replicate 64 'f') ∧
      ∀ t, t ∈ topics ↔ ∃ p ∈ disassemble code, ∃ l ∈ disassemble code,
        Feeds (disassemble code) p l ∧ p.immediate.length = 32 ∧
        p.immediate ≠ List.replicate 32 0xff ∧ Hex.encode0x p.immediate = t := by
  refine ⟨scan code, ?_, (tracks_scan code).nodup, fun t ht => ?_, fun t => mem_scan_iff⟩
  · rw [Skeleton.topicsOfValue, Code.ofValue_bytes hcode]
    rfl
  · obtain ⟨p, -, -, -, -, hlength, hones, rfl⟩ := mem_scan_iff.1 ht
    refine ⟨Hex.ofBytes p.immediate, rfl, ?_, fun d hd => Hex.mem_digits_of_mem_ofBytes hd, ?_⟩
    · rw [Hex.length_ofBytes, hlength]
    · have hff : List.replicate 64 'f' = Hex.ofBytes (List.replicate 32 0xff) := by decide
      rw [hff]
      exact fun hdigits => hones (Hex.ofBytes_inj hdigits)

def parted (op : UInt8) : Bytes :=
  Opcode.push32 :: (List.replicate 32 0x11 ++ [op, 0xa1])

theorem topics_fed_parted :
    parted Opcode.jumpIf ≠ [] ∧
      ∃ topics, Skeleton.topicsOfValue (.bytes (parted Opcode.jumpIf)) = .ok topics ∧
        topics.Nodup ∧ Hex.encode0x (List.replicate 32 0x11) ∈ topics := by
  have hcode : parted Opcode.jumpIf ≠ [] := by decide
  obtain ⟨topics, htopics, hnodup, -, hmem⟩ := topics_fed hcode
  refine ⟨hcode, topics, htopics, hnodup, (hmem _).2 ?_⟩
  exact ⟨⟨0, Opcode.push32, List.replicate 32 0x11⟩, by decide, ⟨34, 0xa1, []⟩, by decide,
    by decide, by decide, by decide, rfl⟩

/-- The block of the constant ends at a halt, or at a conditional jump, and the log behind takes it
all the same. -/
theorem topics_leave_block :
    (Skeleton.topicsOfValue (.bytes (parted Opcode.stop)) =
        .ok [Hex.encode0x (List.replicate 32 0x11)] ∧
      ¬∃ p ∈ disassemble (parted Opcode.stop), ∃ l ∈ disassemble (parted Opcode.stop),
        Feeds (disassemble (parted Opcode.stop)) p l ∧
        ∀ i ∈ disassemble (parted Opcode.stop), p.pc < i.pc → i.pc < l.pc →
          Dispatcher.endsBlock i.opcode = false) ∧
    Skeleton.topicsOfValue (.bytes (parted Opcode.jumpIf)) =
        .ok [Hex.encode0x (List.replicate 32 0x11)] ∧
      ¬∃ p ∈ disassemble (parted Opcode.jumpIf), ∃ l ∈ disassemble (parted Opcode.jumpIf),
        Feeds (disassemble (parted Opcode.jumpIf)) p l ∧
        ∀ i ∈ disassemble (parted Opcode.jumpIf), p.pc < i.pc → i.pc < l.pc →
          Dispatcher.endsBlock i.opcode = false := by
  exact ⟨⟨by rfl, by decide⟩, by rfl, by decide⟩

end EventTopics

end ContractAbi
