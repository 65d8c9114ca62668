import Mathlib.Data.List.Nodup
import Mathlib.Logic.Equiv.Basic
import Mathlib.Logic.Function.Basic

/-! Keys kept in buckets, each bucket a list in the order in which the keys came. A key is
put at the end of a bucket, and is taken out of whichever bucket it is in without that
bucket being named. The tables stay apart: no key stands twice, in one bucket or in two. -/

namespace Buckets

variable {κ β : Type*}

/-- Put `k` at the end of bucket `b`. -/
def insert [DecidableEq β] (t : β → List κ) (k : κ) (b : β) : β → List κ := Function.update t b (t b ++ [k])

/-- Take `k` out of the bucket it is in. -/
def remove [DecidableEq κ] (t : β → List κ) (k : κ) : β → List κ := fun b => (t b).erase k

/-- Exchange the contents of two buckets. -/
def swap [DecidableEq β] (t : β → List κ) (a b : β) : β → List κ := fun c => t (Equiv.swap a b c)

/-- The key behind `k` in its bucket. -/
def next [DecidableEq κ] (k : κ) : List κ → Option κ
  | [] => none
  | j :: js => if j = k then js.head? else next k js

/-- Of a bucket, `pre` and `tail` have stayed where they were; what else is in it stands between
them or behind them, and is of `S`. -/
def Around (S : Set κ) (pre tail l : List κ) : Prop :=
  ∃ mid more, l = pre ++ mid ++ tail ++ more ∧ (∀ k ∈ mid, k ∈ S) ∧ ∀ k ∈ more, k ∈ S

/-- No key stands twice. -/
structure Apart (t : β → List κ) : Prop where
  nodup : ∀ b, (t b).Nodup
  once : ∀ {k b c}, k ∈ t b → k ∈ t c → b = c

variable {t : β → List κ} {j k : κ} {a b c : β} {S : Set κ} {pre tail l : List κ}

theorem mem_insert [DecidableEq β] : j ∈ insert t k b c ↔ j ∈ t c ∨ j = k ∧ c = b := by
  rw [insert]
  by_cases hc : c = b
  · subst hc
    simp
  · simp [hc]

theorem mem_swap [DecidableEq β] : j ∈ swap t a b c ↔ j ∈ t (Equiv.swap a b c) := Iff.rfl

theorem apart_empty : Apart fun _ : β => ([] : List κ) :=
  ⟨fun _ => List.nodup_nil, fun h => absurd h List.not_mem_nil⟩

theorem next_append [DecidableEq κ] (h : k ∉ pre) : next k (pre ++ k :: tail) = tail.head? := by
  induction pre with
  | nil => exact if_pos rfl
  | cons i pre ih =>
    rw [List.mem_cons, not_or] at h
    rw [List.cons_append, next, if_neg (Ne.symm h.1), ih h.2]

namespace Around

theorem start (hk : k ∈ S) : Around S pre tail (pre ++ k :: tail) :=
  ⟨[k], [], by simp, fun _ hj => List.mem_singleton.mp hj ▸ hk, nofun⟩

theorem erase [DecidableEq κ] (h : Around S pre tail l) (hk : k ∈ S) (hpre : ∀ j ∈ pre, j ∉ S)
    (htail : ∀ j ∈ tail, j ∉ S) : Around S pre tail (l.erase k) := by
  obtain ⟨mid, more, rfl, hmid, hmore⟩ := h
  have hp : k ∉ pre := fun hm => hpre k hm hk
  have ht : k ∉ tail := fun hm => htail k hm hk
  by_cases hm : k ∈ mid
  · refine ⟨mid.erase k, more, ?_, fun j hj => hmid j (List.mem_of_mem_erase hj), hmore⟩
    rw [List.append_assoc, List.append_assoc, List.erase_append_right _ hp, List.erase_append_left _ hm,
      List.append_assoc, List.append_assoc]
  · refine ⟨mid, more.erase k, ?_, hmid, fun j hj => hmore j (List.mem_of_mem_erase hj)⟩
    rw [List.erase_append_right]
    simp [hp, hm, ht]

theorem append (h : Around S pre tail l) (hk : k ∈ S) : Around S pre tail (l ++ [k]) := by
  obtain ⟨mid, more, rfl, hmid, hmore⟩ := h
  refine ⟨mid, more ++ [k], by rw [List.append_assoc], hmid, fun j hj => ?_⟩
  rcases List.mem_append.mp hj with hj | hj
  · exact hmore j hj
  · exact List.mem_singleton.mp hj ▸ hk

theorem remove [DecidableEq κ] (h : Around S pre tail (t b)) (hk : k ∈ S) (hpre : ∀ j ∈ pre, j ∉ S)
    (htail : ∀ j ∈ tail, j ∉ S) : Around S pre tail (Buckets.remove t k b) := h.erase hk hpre htail

theorem insert [DecidableEq β] (h : Around S pre tail (t b)) (hk : k ∈ S) (c : β) :
    Around S pre tail (Buckets.insert t k c b) := by
  rw [Buckets.insert]
  by_cases hb : b = c
  · subst hb
    rw [Function.update_self]
    exact h.append hk
  · rwa [Function.update_of_ne hb]

end Around

namespace Apart

section

variable [DecidableEq κ]

theorem mem_remove (h : Apart t) : j ∈ remove t k b ↔ j ≠ k ∧ j ∈ t b := (h.nodup b).mem_erase_iff

theorem remove (h : Apart t) (k : κ) : Apart (remove t k) where
  nodup b := (h.nodup b).erase k
  once hb hc := h.once (h.mem_remove.mp hb).2 (h.mem_remove.mp hc).2

end

theorem insert [DecidableEq β] (h : Apart t) (hk : ∀ c, k ∉ t c) (b : β) : Apart (insert t k b) where
  nodup c := by
    rw [Buckets.insert]
    by_cases hc : c = b
    · subst hc
      rw [Function.update_self, List.nodup_append]
      refine ⟨h.nodup c, List.nodup_singleton k, fun i hi j hj hij => ?_⟩
      rw [List.mem_singleton.mp hj] at hij
      exact hk c (hij ▸ hi)
    · rw [Function.update_of_ne hc]
      exact h.nodup c
  once hb hc := by
    rcases mem_insert.mp hb with hb | ⟨hkb, hb⟩ <;> rcases mem_insert.mp hc with hc | ⟨hkc, hc⟩
    · exact h.once hb hc
    · exact absurd (hkc ▸ hb) (hk _)
    · exact absurd (hkb ▸ hc) (hk _)
    · rw [hb, hc]

/-- Take `k` out and put it at the end of `b`. -/
theorem move [DecidableEq κ] [DecidableEq β] (h : Apart t) (k : κ) (b : β) :
    Apart (Buckets.insert (Buckets.remove t k) k b) :=
  (h.remove k).insert (fun _ hc => (h.mem_remove.mp hc).1 rfl) b

theorem mem_move [DecidableEq κ] [DecidableEq β] (h : Apart t) :
    j ∈ Buckets.insert (Buckets.remove t k) k b c ↔ j ≠ k ∧ j ∈ t c ∨ j = k ∧ c = b := by
  rw [mem_insert, h.mem_remove]

theorem swap [DecidableEq β] (h : Apart t) (a b : β) : Apart (swap t a b) where
  nodup _ := h.nodup _
  once hk hk' := (Equiv.swap a b).injective (h.once hk hk')

end Apart

end Buckets
