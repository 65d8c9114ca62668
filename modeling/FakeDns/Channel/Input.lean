import FakeDns.Channel.Process
import FakeDns.ByteMemory.Sequences

/-! Reading a message. A turn of `read_tcp_data` takes at most what is missing of the length
word or of the message, and adds it to what is held of the message or completes it. A
message of no bytes is taken for the end of the connection. -/

namespace FakeDns.Channel

open ByteMemory

/-- The bytes of the next message that were read so far. -/
def TcpInput.held (input : TcpInput) : List UInt8 :=
  if input.lenbuf.length = 2 then input.lenbuf ++ input.buffer else input.lenbuf

/-- The length word is that of the message, which is not complete yet. -/
structure TcpInput.Pending (input : TcpInput) : Prop where
  lenbuf_le : input.lenbuf.length ≤ 2
  word : input.lenbuf.length = 2 → input.lenbuf = set16 input.length ∧ input.length < 65536
  missing : input.lenbuf.length = 2 → input.buffer.length ≤ input.length ∧
    (input.buffer.length = input.length → input.length = 0)

variable {input next : TcpInput} {bytes abuf stream : List UInt8} {ms : List (List UInt8)}

theorem set16_word (hi lo : UInt8) : set16 (hi.toNat * 256 + lo.toNat) = [hi, lo] := by
  have hhi := hi.toNat_lt
  have hlo := lo.toNat_lt
  rw [set16, show (hi.toNat * 256 + lo.toNat) / 256 = hi.toNat by omega, UInt8.ofNat_toNat]
  congr 2
  apply UInt8.toNat_inj.mp
  rw [UInt8.toNat_ofNat']
  omega

theorem word_lt (hi lo : UInt8) : hi.toNat * 256 + lo.toNat < 65536 := by
  have hhi := hi.toNat_lt
  have hlo := lo.toNat_lt
  omega

theorem set16_inj (k l : ℕ) (hk : k < 65536) (hl : l < 65536) (h : set16 k = set16 l) : k = l := by
  rw [set16, set16] at h
  injection h with hhi h
  injection h with hlo _
  have hhi' := congrArg UInt8.toNat hhi
  have hlo' := congrArg UInt8.toNat hlo
  rw [UInt8.toNat_ofNat', UInt8.toNat_ofNat'] at hhi' hlo'
  omega

theorem pending_empty (length : ℕ) : TcpInput.Pending ⟨[], length, []⟩ :=
  ⟨Nat.zero_le _, fun h => absurd h (by simp), fun h => absurd h (by simp)⟩

/-- `open_tcp_socket` forgets what was read behind the length word. -/
theorem TcpInput.Pending.clear (h : input.Pending) : TcpInput.Pending { input with buffer := [] } :=
  ⟨h.lenbuf_le, h.word, fun _ => ⟨Nat.zero_le _, Eq.symm⟩⟩

theorem TcpInput.held_clear (hheld : input.held = []) :
    TcpInput.held { input with buffer := [] } = [] := by
  rw [TcpInput.held] at hheld ⊢
  split_ifs at hheld ⊢ with hfull
  · rw [(List.append_eq_nil_iff.mp hheld).1]
    rfl
  · exact hheld

/-- One turn reads on in the message, or completes it. -/
theorem TcpInput.Pending.read_cases (h : input.Pending) (bytes : List UInt8) :
    (input.read bytes = .broken ∧ bytes.take input.wants = []) ∨
    (∃ next, input.read bytes = .more next ∧ next.Pending ∧ next.held = input.held ++ bytes.take input.wants) ∨
    ∃ length abuf, input.read bytes = .message ⟨[], length, []⟩ abuf ∧ abuf ≠ [] ∧ abuf.length < 65536 ∧
      frame set16 abuf = input.held ++ bytes.take input.wants := by
  obtain ⟨lenbuf, length, buffer⟩ := input
  have hword : ∀ hi lo : UInt8, TcpInput.Pending ⟨[hi, lo], hi.toNat * 256 + lo.toNat, []⟩ := fun hi lo =>
    ⟨le_rfl, fun _ => ⟨(set16_word hi lo).symm, word_lt hi lo⟩, fun _ => ⟨Nat.zero_le _, fun h => h.symm⟩⟩
  match lenbuf, h with
  | [], _ =>
    match bytes with
    | [] => exact .inl ⟨rfl, rfl⟩
    | [a] => exact .inr (.inl ⟨_, rfl, ⟨Nat.le_succ 1, nofun, nofun⟩, rfl⟩)
    | hi :: lo :: bytes => exact .inr (.inl ⟨_, rfl, hword hi lo, rfl⟩)
  | [hi], _ =>
    match bytes with
    | [] => exact .inl ⟨rfl, rfl⟩
    | lo :: bytes => exact .inr (.inl ⟨_, rfl, hword hi lo, rfl⟩)
  | [hi, lo], h =>
    obtain ⟨hw, hlt⟩ := h.word rfl
    obtain ⟨hle, -⟩ := h.missing rfl
    dsimp only at hw hlt hle
    have hwants : (⟨[hi, lo], length, buffer⟩ : TcpInput).wants = length - buffer.length := if_pos rfl
    have hheld : (⟨[hi, lo], length, buffer⟩ : TcpInput).held = [hi, lo] ++ buffer := if_pos rfl
    rw [hwants, hheld]
    simp only [TcpInput.read]
    by_cases hnil : bytes.take (length - buffer.length) = []
    · exact .inl ⟨if_pos hnil, hnil⟩
    · rw [if_neg hnil]
      have hcount := List.length_pos_of_ne_nil hnil
      have hmax := List.length_take_le (length - buffer.length) bytes
      by_cases hfull : (buffer ++ bytes.take (length - buffer.length)).length = length
      · refine .inr (.inr ⟨_, _, if_pos hfull, ?_, ?_, ?_⟩)
        · exact fun h => hnil (List.append_eq_nil_iff.mp h).2
        · exact hfull.trans_lt hlt
        · rw [frame, hfull, ← hw, List.append_assoc]
      · refine .inr (.inl ⟨_, if_neg hfull, ⟨le_rfl, fun _ => ⟨hw, hlt⟩, fun _ => ⟨?_, fun h => absurd h hfull⟩⟩, ?_⟩)
        · rw [List.length_append]
          dsimp only
          omega
        · exact (if_pos rfl).trans (List.append_assoc _ _ _).symm
  | _ :: _ :: _ :: lenbuf, h =>
    have hle := h.lenbuf_le
    simp only [List.length_cons] at hle
    omega

/-- What is held of a message is never the whole of one that has bytes. -/
theorem held_ne_frames (h : input.Pending) {m : List UInt8} (hm : m ≠ []) (hlt : m.length < 65536)
    (rest : List UInt8) : input.held ≠ set16 m.length ++ m ++ rest := by
  intro he
  have hpos := List.length_pos_of_ne_nil hm
  have hlen := congrArg List.length he
  simp only [List.length_append, length_set16] at hlen
  have hle := h.lenbuf_le
  by_cases hfull : input.lenbuf.length = 2
  · obtain ⟨hw, hlength⟩ := h.word hfull
    obtain ⟨hbuffer, hzero⟩ := h.missing hfull
    rw [TcpInput.held, if_pos hfull, List.append_assoc] at he
    obtain ⟨hword, hrest⟩ := List.append_inj he (hfull.trans (length_set16 _).symm)
    have hm := set16_inj _ _ hlength hlt (hw.symm.trans hword)
    have hrest := congrArg List.length hrest
    rw [List.length_append] at hrest
    have := hzero (by omega)
    omega
  · rw [TcpInput.held, if_neg hfull] at hlen
    omega

/-- More is wanted of a message, unless it has no bytes. -/
theorem TcpInput.Pending.wants_pos (h : input.Pending) (hms : ∀ m ∈ ms, m ≠ [] ∧ m.length < 65536)
    (hstream : input.held ++ stream = frames set16 ms) : 0 < input.wants := by
  apply Nat.pos_of_ne_zero
  intro hwants
  rw [TcpInput.wants] at hwants
  have hle := h.lenbuf_le
  split_ifs at hwants with hfull
  · obtain ⟨hw, hlength⟩ := h.word hfull
    obtain ⟨hbuffer, hzero⟩ := h.missing hfull
    have hlength₀ := hzero (by omega)
    rw [TcpInput.held, if_pos hfull, hw, hlength₀] at hstream
    cases ms with
    | nil => exact absurd hstream (by simp [set16, frames])
    | cons m ms =>
      rw [frames_cons, List.append_assoc, List.append_assoc] at hstream
      obtain ⟨hword, -⟩ := List.append_inj hstream rfl
      have hm := set16_inj _ _ (by decide) (hms m List.mem_cons_self).2 hword
      exact (hms m List.mem_cons_self).1 (List.length_eq_zero_iff.mp hm.symm)
  · omega

/-- If what was read is the beginning of a stream of messages that have bytes, then the
messages that it completes are the first of them, all of them if all was read; and there is
always something that is still wanted. -/
theorem TcpInput.Pending.frames_prefix (h : input.Pending) {ns : List (List UInt8)}
    (hms : ∀ m ∈ ms, m ≠ [] ∧ m.length < 65536) (hns : ∀ n ∈ ns, n ≠ [] ∧ n.length < 65536) {rest : List UInt8}
    (hread : frames set16 ms ++ input.held ++ rest = frames set16 ns) :
    ms <+: ns ∧ (rest = [] → ms = ns) ∧ 0 < input.wants := by
  rw [List.append_assoc] at hread
  obtain ⟨hpre, hdrop⟩ := prefix_of_frames length_set16 (Nat.succ_pos 1) set16_inj (fun m hm => (hms m hm).2)
    (fun n hn => (hns n hn).2) hread
  have hdropped : ∀ n ∈ ns.drop ms.length, n ≠ [] ∧ n.length < 65536 := fun n hn => hns n (List.mem_of_mem_drop hn)
  refine ⟨hpre, fun hnil => ?_, ?_⟩
  · rw [hnil, List.append_nil] at hdrop
    cases hd : ns.drop ms.length with
    | nil => exact hpre.eq_of_length_le (List.drop_eq_nil_iff.mp hd)
    | cons n ns =>
      rw [hd, frames_cons] at hdrop
      rw [hd] at hdropped
      obtain ⟨hn, hlt⟩ := hdropped n List.mem_cons_self
      exact absurd hdrop (held_ne_frames h hn hlt _)
  · exact h.wants_pos hdropped hdrop

end FakeDns.Channel
