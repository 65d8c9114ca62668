import FakeDns.Dns.AddrReply

/-! `ares_parse_ptr_reply`. The name delivered is the data of the last pointer record for
the name asked about, which is the one that the last alias record before it leads to; the
aliases are the data of all of them in order. The array of aliases starts with eight slots
and doubles when it is full, so there is a free slot before every pointer record. Memory is
there when the parser asks for it. -/

namespace FakeDns

open ByteMemory DomainName

/-- The variables of the loop. -/
structure PtrScan where
  aptr : ℕ
  ptrname : List UInt8
  hostname : Option (List UInt8)
  aliases : List (List UInt8)
  aliasAlloc : ℕ

section

variable (abuf : List UInt8)

/-- The body of the first `if`: a pointer record of the name asked about. -/
def takePtr (rr : Rr) (st : PtrScan) : Outcome UInt32 PtrScan :=
  if rr.Has T_PTR ∧ sameName rr.name st.ptrname then do
    let (rrData, _) ← aresExpandNameForResponse rr.data abuf
    if st.aliases.length < st.aliasAlloc then
      -- the copy ends at the first zero of the name
      let aliases := st.aliases ++ [headString rrData]
      .ok { st with
        hostname := some rrData
        aliases := aliases
        aliasAlloc := if aliases.length ≥ st.aliasAlloc then st.aliasAlloc * 2 else st.aliasAlloc }
    else .fault
  else .ok st

/-- The body of the second `if`: an alias record. -/
def takePtrCname (rr : Rr) (st : PtrScan) : Outcome UInt32 PtrScan :=
  if rr.Has T_CNAME then do
    let (rrData, _) ← aresExpandNameForResponse rr.data abuf
    .ok { st with ptrname := rrData }
  else .ok st

/-- One iteration of the loop. -/
def examinePtr (st : PtrScan) : Outcome UInt32 PtrScan := do
  let rr ← decodeRr abuf st.aptr
  let st ← takePtr abuf rr st
  let st ← takePtrCname abuf rr st
  if rr.data + rr.len > abuf.length then .fail ARES_EBADRESP
  else .ok { st with aptr := rr.data + rr.len }

/-- What the parser does behind the loop. -/
def finishPtr (addr : List UInt8) (family : UInt32) (st : PtrScan) : Outcome UInt32 Hostent :=
  match st.hostname with
  | none => .fail ARES_ENODATA
  | some hostname => .ok ⟨hostname, st.aliases, family, addr.length, [addr]⟩

/-- `ares_parse_ptr_reply`, for the `addrlen` bytes at `addr`. -/
def aresParsePtrReply (addr : List UInt8) (family : UInt32) : Outcome UInt32 Hostent := do
  let (ptrname, aptr, ancount) ← decodeQuestion abuf
  let st ← forRecords (examinePtr abuf) ancount ⟨aptr, ptrname, none, [], 8⟩
  finishPtr addr family st

end

/-! ### What a reply says -/

section

variable (abuf q : List UInt8)

/-- A pointer record of the name that is asked about behind the records `before`. -/
def PtrFor (before : List Rr) (rr : Rr) : Prop := rr.Has T_PTR ∧ sameName rr.name (current abuf q before)

instance (before : List Rr) (rr : Rr) : Decidable (PtrFor abuf q before rr) :=
  inferInstanceAs (Decidable (_ ∧ _))

/-- The data of such a record. -/
def pointerAt (before : List Rr) (rr : Rr) : Option (List UInt8) :=
  if PtrFor abuf q before rr then rr.target abuf else none

/-- The names that a reply points at. -/
def pointers (rrs : List Rr) : List (List UInt8) := collect (pointerAt abuf q) rrs

/-- The records whose data must be a name. -/
def PtrNamed (before : List Rr) (rr : Rr) : Prop := rr.Has T_CNAME ∨ PtrFor abuf q before rr

/-- The slots of the array with `n` aliases in it. -/
def aliasSlots : ℕ → ℕ
  | 0 => 8
  | n + 1 => if n + 1 ≥ aliasSlots n then aliasSlots n * 2 else aliasSlots n

/-- The state of the loop behind the records `done`. -/
def ptrScan (done : List Rr) (p : ℕ) : PtrScan where
  aptr := p
  ptrname := current abuf q done
  hostname := (pointers abuf q done).getLast?
  aliases := (pointers abuf q done).map headString
  aliasAlloc := aliasSlots (pointers abuf q done).length

end

section

variable {abuf q : List UInt8} {done : List Rr} {rr : Rr} {p : ℕ}

theorem lt_aliasSlots (n : ℕ) : n < aliasSlots n := by
  induction n with
  | zero => decide
  | succ n ih =>
    rw [aliasSlots]
    split_ifs <;> omega

theorem pointers_concat (done : List Rr) (rr : Rr) :
    pointers abuf q (done ++ [rr]) = pointers abuf q done ++ (pointerAt abuf q done rr).toList :=
  collect_concat _ done rr

/-- The first `if` adds the name that the record points at. -/
theorem takePtr_ptrScan (hsize : abuf.length < 2 ^ 22) (ht : PtrFor abuf q done rr → (rr.target abuf).isSome)
    (hd : rr.data ≤ abuf.length) :
    takePtr abuf rr (ptrScan abuf q done p) = .ok { ptrScan abuf q (done ++ [rr]) p with
      ptrname := current abuf q done } := by
  rw [takePtr, show (ptrScan abuf q done p).ptrname = current abuf q done from rfl]
  by_cases hm : PtrFor abuf q done rr
  · obtain ⟨s, hs⟩ := Option.isSome_iff_exists.mp (ht hm)
    rcases Rr.target_cases hsize hd with ⟨hnone, -⟩ | ⟨s', w, hs', he⟩
    · cases hs.symm.trans hnone
    obtain rfl := Option.some_inj.mp (hs.symm.trans hs')
    have hadd : pointers abuf q (done ++ [rr]) = pointers abuf q done ++ [s] := by
      rw [pointers_concat, pointerAt, if_pos hm, hs, Option.toList_some]
    have hslot : (ptrScan abuf q done p).aliases.length < (ptrScan abuf q done p).aliasAlloc := by
      simp only [ptrScan, List.length_map]
      exact lt_aliasSlots _
    rw [if_pos (show rr.Has T_PTR ∧ sameName rr.name (current abuf q done) = true from hm), he, Outcome.bind_ok]
    dsimp only
    rw [if_pos hslot]
    simp only [ptrScan, hadd, List.map_append, List.map_singleton, List.length_append, List.length_map,
      List.length_singleton, aliasSlots, List.getLast?_concat]
  · have hadd : pointers abuf q (done ++ [rr]) = pointers abuf q done := by
      rw [pointers_concat, pointerAt, if_neg hm, Option.toList_none, List.append_nil]
    rw [if_neg (show ¬ (rr.Has T_PTR ∧ sameName rr.name (current abuf q done) = true) from hm)]
    simp only [ptrScan, hadd]

/-- The second `if` replaces the name asked about. -/
theorem takePtrCname_ptrScan (hsize : abuf.length < 2 ^ 22) (ht : rr.Has T_CNAME → (rr.target abuf).isSome)
    (hd : rr.data ≤ abuf.length) :
    takePtrCname abuf rr { ptrScan abuf q (done ++ [rr]) p with ptrname := current abuf q done } =
      .ok (ptrScan abuf q (done ++ [rr]) p) := by
  rw [takePtrCname]
  by_cases hc : rr.Has T_CNAME
  · obtain ⟨s, hs⟩ := Option.isSome_iff_exists.mp (ht hc)
    rcases Rr.target_cases hsize hd with ⟨hnone, -⟩ | ⟨s', w, hs', he⟩
    · cases hs.symm.trans hnone
    obtain rfl := Option.some_inj.mp (hs.symm.trans hs')
    rw [if_pos hc, he, Outcome.bind_ok]
    simp only [ptrScan, current_concat, if_pos hc, hs, Option.getD_some]
  · rw [if_neg hc]
    simp only [ptrScan, current_concat, if_neg hc]

/-- One iteration takes one record in order: the state behind it is the state for the longer
list of records. -/
theorem examinePtr_takes (hsize : abuf.length < 2 ^ 22) (cap : ℕ) :
    TakesRecord abuf (PtrNamed abuf q) cap (examinePtr abuf) (ptrScan abuf q) := by
  intro done p hp _
  rw [examinePtr, show (ptrScan abuf q done p).aptr = p from rfl]
  rcases decodeRr_cases hsize hp with he | ⟨rr, he, -, hd⟩
  · right
    refine ⟨?_, by rw [he, Outcome.bind_fail]⟩
    rintro ⟨rr, hr⟩
    cases he.symm.trans hr.decode
  rw [he, Outcome.bind_ok]
  by_cases ht : PtrNamed abuf q done rr → (rr.target abuf).isSome
  · rw [takePtr_ptrScan hsize (fun h => ht (.inr h)) hd, Outcome.bind_ok,
      takePtrCname_ptrScan hsize (fun h => ht (.inl h)) hd, Outcome.bind_ok]
    by_cases hin : rr.data + rr.len ≤ abuf.length
    · left
      exact ⟨rr, ⟨he, hin, ht⟩, by rw [if_neg (not_lt.mpr hin)]; rfl⟩
    · right
      refine ⟨?_, if_pos (not_le.mp hin)⟩
      rintro ⟨rr', hr⟩
      obtain rfl := Outcome.ok.inj (he.symm.trans hr.decode)
      exact hin hr.data_le
  · right
    constructor
    · rintro ⟨rr', hr⟩
      obtain rfl := Outcome.ok.inj (he.symm.trans hr.decode)
      exact ht hr.target
    · obtain ⟨hnamed, hnone⟩ := Classical.not_imp.mp ht
      rcases Rr.target_cases hsize hd with ⟨-, hfail⟩ | ⟨s, w, hs, -⟩
      · by_cases hm : PtrFor abuf q done rr
        · have hm' : rr.Has T_PTR ∧ sameName rr.name (ptrScan abuf q done p).ptrname = true := hm
          rw [takePtr, if_pos hm', hfail, Outcome.bind_fail, Outcome.bind_fail]
        · rw [takePtr_ptrScan hsize (fun h => absurd h hm) hd, Outcome.bind_ok, takePtrCname,
            if_pos (hnamed.resolve_right hm), hfail, Outcome.bind_fail, Outcome.bind_fail]
      · rw [hs] at hnone
        exact absurd rfl hnone

/-- The loop takes the records in order, or comes to one that is malformed. -/
theorem aresParsePtrReply_eq (hsize : abuf.length < 2 ^ 22) (addr : List UInt8) (family : UInt32) :
    (∃ q rrs p', Says abuf (PtrNamed abuf q) q rrs ∧
      aresParsePtrReply abuf addr family = finishPtr addr family (ptrScan abuf q rrs p')) ∨
    ((¬ ∃ q rrs, Says abuf (PtrNamed abuf q) q rrs) ∧
      aresParsePtrReply abuf addr family = .fail ARES_EBADRESP) := by
  have hinit : ∀ q p, (⟨p, q, none, [], 8⟩ : PtrScan) = ptrScan abuf q [] p := fun _ _ => rfl
  rw [aresParsePtrReply]
  exact reply_cases hsize (fun _ => finishPtr addr family) (fun q n => examinePtr_takes hsize (q := q) n) hinit

/-- A reply gives a hostent, or an error. -/
theorem aresParsePtrReply_ends (hsize : abuf.length < 2 ^ 22) (addr : List UInt8) (family : UInt32) :
    (∃ host, aresParsePtrReply abuf addr family = .ok host) ∨
      ∃ status, aresParsePtrReply abuf addr family = .fail status ∧
        (status = ARES_ENODATA ∨ status = ARES_EBADRESP) := by
  rcases aresParsePtrReply_eq hsize addr family with ⟨q, rrs, p', -, he⟩ | ⟨-, he⟩
  · rw [he, finishPtr]
    cases (ptrScan abuf q rrs p').hostname with
    | none => exact .inr ⟨_, rfl, .inl rfl⟩
    | some hostname => exact .inl ⟨_, rfl⟩
  · exact .inr ⟨_, he, .inr rfl⟩

/-- Behind a chain of aliases, the names are those that the records of the name at its end point
at. -/
theorem pointers_of_leads {c : List UInt8} {cs rrs : List Rr} (h : Leads abuf q cs c)
    (hrrs : ∀ rr ∈ rrs, ¬ rr.Has T_CNAME) :
    pointers abuf q (cs ++ rrs) =
      (rrs.filter fun rr => rr.Has T_PTR ∧ sameName rr.name c).filterMap (Rr.target abuf) := by
  have hchain : pointers abuf q cs = [] := collect_eq_nil fun before rr hrr =>
    if_neg fun h' => absurd (h'.1.2.symm.trans (h.has rr hrr).2) (by decide)
  rw [pointers, collect_append_eq (g := fun rr => if rr.Has T_PTR ∧ sameName rr.name c then rr.target abuf else none)
    hchain rrs]
  · rw [List.filterMap_filter]
    refine List.filterMap_congr fun rr _ => ?_
    simp only [decide_eq_true_eq]
  · intro before rr hpre
    have hcurrent := h.current_eq fun r hr => hrrs r (hpre.subset (List.mem_append_left _ hr))
    refine if_congr ?_ rfl rfl
    change rr.Has T_PTR ∧ sameName rr.name (current abuf q (cs ++ before)) = true ↔ _
    rw [hcurrent]

/-- The parser reads inside the message, writes inside its array of aliases and comes to an
end: it turns a malformed reply away, and delivers the names that any other reply points
at, the last one as the name. If the reply begins with a chain of aliases and has no other,
they are the names that the records of the name at the end of the chain point at. -/
theorem aresParsePtrReply_cases (hsize : abuf.length < 2 ^ 22) (addr : List UInt8) (family : UInt32) :
    (∃ q rrs, Says abuf (PtrNamed abuf q) q rrs ∧
      aresParsePtrReply abuf addr family =
        (match (pointers abuf q rrs).getLast? with
        | none => .fail ARES_ENODATA
        | some hostname =>
          .ok ⟨hostname, (pointers abuf q rrs).map headString, family, addr.length, [addr]⟩) ∧
      ∀ cs rs c, rrs = cs ++ rs → Leads abuf q cs c → (∀ rr ∈ rs, ¬ rr.Has T_CNAME) →
        pointers abuf q rrs =
          (rs.filter fun rr => rr.Has T_PTR ∧ sameName rr.name c).filterMap (Rr.target abuf)) ∨
    ((¬ ∃ q rrs, Says abuf (PtrNamed abuf q) q rrs) ∧
      aresParsePtrReply abuf addr family = .fail ARES_EBADRESP) := by
  rcases aresParsePtrReply_eq hsize addr family with ⟨q, rrs, p', hsays, he⟩ | hno
  · refine .inl ⟨q, rrs, hsays, he, ?_⟩
    rintro cs rs c rfl h hrs
    exact pointers_of_leads h hrs
  · exact .inr hno

end

/-- A reply about "x" with an alias to "y" and the name "h" of "y". -/
def ptrAliasReply : List UInt8 :=
  [0, 7, 129, 128, 0, 1, 0, 2, 0, 0, 0, 0, 1, 120, 0, 0, 12, 0, 1,
    1, 120, 0, 0, 5, 0, 1, 0, 0, 0, 60, 0, 3, 1, 121, 0,
    1, 121, 0, 0, 12, 0, 1, 0, 0, 0, 60, 0, 3, 1, 104, 0]

/-- The name of the alias is delivered. -/
theorem aresParsePtrReply_sample : ∃ q rrs, Says ptrAliasReply (PtrNamed ptrAliasReply q) q rrs ∧
    (pointers ptrAliasReply q rrs).map headString = [[104]] := by
  have haliases : (aresParsePtrReply ptrAliasReply [10, 0, 0, 1] AF_INET >>= fun host => .ok host.hAliases) =
      .ok [[104]] := by decide +kernel
  rcases aresParsePtrReply_cases (show ptrAliasReply.length < 2 ^ 22 by decide) [10, 0, 0, 1] AF_INET with
    ⟨q, rrs, hsays, he, -⟩ | ⟨-, he⟩
  · refine ⟨q, rrs, hsays, ?_⟩
    rw [he] at haliases
    cases hlast : (pointers ptrAliasReply q rrs).getLast? with
    | none =>
      rw [hlast] at haliases
      cases haliases
    | some hostname =>
      rw [hlast] at haliases
      exact Outcome.ok.inj haliases
  · rw [he] at haliases
    cases haliases

end FakeDns
