import Mathlib.Data.List.Range

/-! Lists that are gone through from front to back. A loop that decides about each element in
view of the elements before it collects a list, defined by position, that grows at its end. A
stream of messages, each behind a header of fixed width that says how long it is, can be cut
into messages in one way only. -/

namespace ByteMemory

/-- What `f` finds at each element, given the elements before it. -/
def collect {α β : Type*} (f : List α → α → Option β) (xs : List α) : List β :=
  (List.range xs.length).filterMap fun i => xs[i]?.bind (f (xs.take i))

section

variable {α β : Type*} {f : List α → α → Option β}

@[simp] theorem collect_nil (f : List α → α → Option β) : collect f [] = [] := rfl

theorem collect_concat (f : List α → α → Option β) (xs : List α) (x : α) :
    collect f (xs ++ [x]) = collect f xs ++ (f xs x).toList := by
  have hx : (xs ++ [x])[xs.length]?.bind (f ((xs ++ [x]).take xs.length)) = f xs x := by simp
  rw [collect, List.length_append, List.length_singleton, List.range_succ, List.filterMap_append, collect]
  congr 1
  · refine List.filterMap_congr fun i hi => ?_
    have hlt := List.mem_range.mp hi
    rw [List.getElem?_append_left hlt, List.take_append_of_le_length hlt.le]
  · rw [List.filterMap_cons, hx]
    cases f xs x <;> rfl

theorem length_collect_le (f : List α → α → Option β) (xs : List α) : (collect f xs).length ≤ xs.length :=
  (List.length_filterMap_le _ _).trans_eq List.length_range

/-- Behind a beginning where nothing is found, a loop that looks at each element alone. -/
theorem collect_append_eq {g : α → Option β} {xs : List α} (hxs : collect f xs = []) :
    ∀ ys : List α, (∀ zs y, zs ++ [y] <+: ys → f (xs ++ zs) y = g y) → collect f (xs ++ ys) = ys.filterMap g := by
  intro ys
  induction ys using List.reverseRecOn with
  | nil =>
    intro _
    rw [List.append_nil, hxs, List.filterMap_nil]
  | append_singleton ys y ih =>
    intro h
    rw [← List.append_assoc, collect_concat, ih fun zs z hz => h zs z (hz.trans (List.prefix_append _ _)),
      h ys y List.prefix_rfl, List.filterMap_append, List.filterMap_cons]
    cases g y <;> rfl

theorem mem_collect {xs : List α} {b : β} (h : b ∈ collect f xs) : ∃ zs, ∃ y ∈ xs, f zs y = some b := by
  obtain ⟨i, -, hi⟩ := List.mem_filterMap.mp h
  obtain ⟨y, hy, hb⟩ := Option.bind_eq_some_iff.mp hi
  exact ⟨_, y, List.mem_of_getElem? hy, hb⟩

theorem collect_eq_nil {xs : List α} (h : ∀ zs y, y ∈ xs → f zs y = none) : collect f xs = [] := by
  apply List.eq_nil_iff_forall_not_mem.mpr
  intro b hb
  obtain ⟨zs, y, hy, hfound⟩ := mem_collect hb
  cases (h zs y hy).symm.trans hfound

end

/-! ### Messages in a stream -/

/-- A message with its header. -/
def frame {β : Type*} (header : ℕ → List β) (m : List β) : List β := header m.length ++ m

/-- The stream of the messages. -/
def frames {β : Type*} (header : ℕ → List β) (ms : List (List β)) : List β := ms.flatMap (frame header)

variable {β : Type*} {header : ℕ → List β} {w bound : ℕ} {m : List β} {ms ns : List (List β)} {s t : List β}

theorem frames_cons (m : List β) (ms : List (List β)) :
    frames header (m :: ms) = header m.length ++ m ++ frames header ms := List.flatMap_cons ..

theorem frames_append (ms ns : List (List β)) : frames header (ms ++ ns) = frames header ms ++ frames header ns :=
  List.flatMap_append ..

theorem frames_singleton (m : List β) : frames header [m] = frame header m := List.flatMap_singleton ..

/-- The header of the next message tells its length. -/
theorem frame_prefix_inj {n : List β} (hw : ∀ k, (header k).length = w)
    (hinj : ∀ k l, k < bound → l < bound → header k = header l → k = l) (hm : m.length < bound)
    (hn : n.length < bound) (h : header m.length ++ m ++ s = header n.length ++ n ++ t) : m = n ∧ s = t := by
  rw [List.append_assoc, List.append_assoc] at h
  obtain ⟨hheader, hrest⟩ := List.append_inj h ((hw _).trans (hw _).symm)
  exact List.append_inj hrest (hinj _ _ hm hn hheader)

/-- Messages that take up a beginning of a stream are its first messages. -/
theorem prefix_of_frames (hw : ∀ k, (header k).length = w) (hpos : 0 < w)
    (hinj : ∀ k l, k < bound → l < bound → header k = header l → k = l) (hms : ∀ m ∈ ms, m.length < bound)
    (hns : ∀ n ∈ ns, n.length < bound) (h : frames header ms ++ s = frames header ns) :
    ms <+: ns ∧ s = frames header (ns.drop ms.length) := by
  induction ms generalizing ns with
  | nil => exact ⟨List.nil_prefix, h⟩
  | cons m ms ih =>
    cases ns with
    | nil =>
      have hlen := congrArg List.length h
      rw [frames_cons] at hlen
      simp only [List.length_append, hw, frames, List.flatMap_nil, List.length_nil] at hlen
      omega
    | cons n ns =>
      rw [frames_cons, frames_cons, List.append_assoc] at h
      obtain ⟨rfl, hrest⟩ := frame_prefix_inj hw hinj (hms m List.mem_cons_self) (hns n List.mem_cons_self) h
      obtain ⟨hpre, hs⟩ := ih (fun k hk => hms k (List.mem_cons_of_mem m hk))
        (fun k hk => hns k (List.mem_cons_of_mem m hk)) hrest
      exact ⟨(List.prefix_cons_inj m).mpr hpre, hs⟩

end ByteMemory
