import FakeDns.AddrInfo.Callback

/-! The service argument of `getaddrinfo`. The port is what `atoi` reads off the string,
cut to 16 bits; only when that is zero is the string looked up in the services database.
A port that comes out right is a statement about the string alone: `ServicePort` says
which port a service string stands for. -/

namespace FakeDns

/-- The number spelled by the digits at the head of a string, behind the digits already
read. -/
def readDigits : List UInt8 → ℕ → ℕ
  | [], n => n
  | c :: cs, n => if isdigit c then readDigits cs (10 * n + (c.toNat - 48)) else n

/-- `atoi`: white space, a sign, and the digits that follow. C leaves a numeral that does not
fit an `int` undefined; here it has its own value. -/
def atoi (s : List UInt8) : Int :=
  match s.dropWhile isspace with
  | [] => 0
  | c :: cs =>
    if c = 45 then -(readDigits cs 0 : Int)
    else if c = 43 then readDigits cs 0
    else readDigits (c :: cs) 0

/-- An entry of the services database, as `getservbyname` returns it: `s_port` is an `int`
that holds the port in network order. -/
structure Servent where
  sName : List UInt8
  sPort : UInt32
  sProto : List UInt8

/-- `getservbyname (s, NULL)`. -/
def getservbyname (services : List Servent) (s : List UInt8) : Option Servent :=
  services.find? fun serv => serv.sName = s

/-- The two fields of the hints that `getaddrinfo` reads. -/
structure Hints where
  aiFamily : UInt32
  aiSocktype : UInt32

/-- The parameters that `getaddrinfo` hands to its callback. -/
def getaddrinfoParam (services : List Servent) (service : Option (List UInt8)) (req : Option Hints) (pai : ℕ) :
    GetaddrinfoCallbackParam :=
  let harg : GetaddrinfoCallbackParam := {
    out := pai
    port := match service with
      | some s => htons (UInt16.ofInt (atoi s))
      | none => 0
    socktype := match req with
      | some r => r.aiSocktype
      | none => 0 }
  match service with
  | none => harg
  | some s =>
    if harg.port = 0 then
      match getservbyname services s with
      | none => harg
      | some serv =>
        let harg := { harg with port := serv.sPort.toUInt16 }
        if harg.socktype = 0 then
          let harg := if serv.sProto = protoTcp then { harg with socktype := SOCK_STREAM } else harg
          if serv.sProto = protoUdp then { harg with socktype := SOCK_DGRAM } else harg
        else harg
    else harg

@[simp] theorem getaddrinfoParam_out (services : List Servent) (service : Option (List UInt8))
    (req : Option Hints) (pai : ℕ) : (getaddrinfoParam services service req pai).out = pai := by
  cases service with
  | none => rfl
  | some s =>
    dsimp only [getaddrinfoParam]
    repeat' split
    all_goals rfl

/-- The port behind a service string, as the code finds it. -/
theorem getaddrinfoParam_port (services : List Servent) (s : List UInt8) (req : Option Hints) (pai : ℕ) :
    (getaddrinfoParam services (some s) req pai).port =
      if htons (UInt16.ofInt (atoi s)) = 0 then
        match getservbyname services s with
        | some serv => serv.sPort.toUInt16
        | none => 0
      else htons (UInt16.ofInt (atoi s)) := by
  unfold getaddrinfoParam
  dsimp only
  split
  · rename_i h0
    cases getservbyname services s with
    | none => exact h0
    | some serv =>
      dsimp only
      repeat' split
      all_goals rfl
  · rfl

/-! ### Numerals -/

/-- A non-empty string of decimal digits. -/
def IsNumeral (s : List UInt8) : Prop := s ≠ [] ∧ ∀ c ∈ s, isdigit c = true

instance (s : List UInt8) : Decidable (IsNumeral s) :=
  decidable_of_iff (s.isEmpty = false ∧ s.all isdigit = true) (by simp [IsNumeral])

/-- The value of a decimal numeral. -/
def numeral (s : List UInt8) : ℕ := s.foldl (fun n c => 10 * n + (c.toNat - 48)) 0

theorem readDigits_numeral {s : List UInt8} (h : ∀ c ∈ s, isdigit c = true) (n : ℕ) :
    readDigits s n = s.foldl (fun n c => 10 * n + (c.toNat - 48)) n := by
  induction s generalizing n with
  | nil => rfl
  | cons c s ih =>
    rw [readDigits, if_pos (h c List.mem_cons_self), List.foldl_cons]
    exact ih (fun d hd => h d (List.mem_cons_of_mem _ hd)) _

/-- `atoi` reads a decimal numeral as its value. -/
theorem atoi_numeral {s : List UInt8} (h : IsNumeral s) : atoi s = numeral s := by
  obtain ⟨hne, hd⟩ := h
  cases s with
  | nil => exact absurd rfl hne
  | cons c s =>
    obtain ⟨hsp, hminus, hplus⟩ := isdigit_facts (hd c List.mem_cons_self)
    rw [atoi, List.dropWhile_cons_of_neg (by simp [hsp])]
    simp only [hminus, hplus, ↓reduceIte]
    rw [readDigits_numeral hd, numeral]

theorem ofInt_natCast (n : ℕ) : UInt16.ofInt (n : Int) = UInt16.ofNat n := by
  rw [← UInt16.toNat_inj, UInt16.ofInt, UInt16.toNat_ofNat', UInt16.toNat_ofNat']
  omega

/-- The code's port for a numeral is zero exactly when its low 16 bits are. -/
theorem htons_numeral_eq_zero_iff {s : List UInt8} (h : IsNumeral s) :
    htons (UInt16.ofInt (atoi s)) = 0 ↔ numeral s % 65536 = 0 := by
  rw [htons_eq_zero_iff, atoi_numeral h, ofInt_natCast, ← UInt16.toNat_inj, UInt16.toNat_ofNat']
  rfl

end FakeDns
