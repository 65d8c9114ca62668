import FakeDns.Channel.Lookups
import FakeDns.Hostent.Copy
import FakeDns.Hostent.Calls
import Mathlib.Data.List.TakeWhile

/-! The resolver behind the calls of the library. Each call makes a lookup over a channel of its
own, waits for it and destroys the channel; and whatever the network and the system do
meanwhile, its callback runs just once. So the calls work as with a resolver that has one
reply to each query. -/

namespace FakeDns

/-- The addresses of a hostent are of version 4, or of version 6. -/
structure Hostent.Sized (host : Hostent) : Prop where
  hLength : host.hLength = sizeofInAddr ∨ host.hLength = sizeofIn6Addr
  hAddrList : ∀ a ∈ host.hAddrList, a.length = host.hLength

instance (host : Hostent) : Decidable host.Sized :=
  decidable_of_iff ((host.hLength = sizeofInAddr ∨ host.hLength = sizeofIn6Addr) ∧
    ∀ a ∈ host.hAddrList, a.length = host.hLength) ⟨fun h => ⟨h.1, h.2⟩, fun h => ⟨h.1, h.2⟩⟩

theorem Hostent.Sized.toNat {host : Hostent} (h : host.Sized) : (UInt32.ofNat host.hLength).toNat = host.hLength := by
  rcases h.hLength with h | h <;> rw [h] <;> rfl

/-- The hostent as a callback of the library sees it: the name ends at its first NUL, and the
aliases are not looked at. -/
def Hostent.answer (host : Hostent) (h : host.Sized) : Answer where
  hName := host.hName.takeWhile (· ≠ 0)
  hAddrtype := host.hAddrtype
  hLength := UInt32.ofNat host.hLength
  hAddrList := host.hAddrList
  name_nonzero h0 := by simpa using List.mem_takeWhile_imp h0
  addr_length a ha := (h.hAddrList a ha).trans h.toNat.symm

end FakeDns

namespace FakeDns.Channel

/-- What a callback of the library is handed, if that is a status or a hostent that can be
copied. -/
def Told.reply (told : Told) : Option FakeDns.Reply :=
  if hs : told.status = ARES_SUCCESS then
    told.host.bind fun host => if h : host.Sized then some (.success (host.answer h)) else none
  else some (.failure told.status hs)

/-- The addresses that `inet_addr`, `inet_pton` and the hosts file give have the size of their
kind. -/
structure Resolver.Sized (res : Resolver) : Prop where
  inetAddr : ∀ {name addr}, res.inetAddr name = some addr → addr.length = sizeofInAddr
  inetPton : ∀ {name addr}, res.inetPton name = some addr → addr.length = sizeofIn6Addr
  hostsFile : ∀ {file family host}, res.hostsFile = .ok file → host ∈ file.entries family → host.Sized

variable {cfg : Config} {res : Resolver} {env : Env} {events : List Event} {name addr : List UInt8} {family : UInt32}
  {host : Hostent} {l : Lookup} {told : Told}

/-- A callback is handed a status, or a hostent that can be copied. -/
theorem Told.Gives.reply {S : Hostent → Prop} {call : ℕ} (h : told.Gives S call) (hS : ∀ host, S host → host.Sized) :
    ∃ reply, told.reply = some reply ∧ reply.Fits := by
  rw [Told.reply]
  split_ifs with hs
  · obtain ⟨host, hhost, hsource⟩ := h.success hs
    have hsized := hS host hsource
    rw [hhost, Option.bind_some, dif_pos hsized]
    refine ⟨_, rfl, ?_⟩
    change 1 ≤ (UInt32.ofNat host.hLength).toNat ∧ (UInt32.ofNat host.hLength).toNat ≤ sizeofSockaddr
    rw [hsized.toNat]
    rcases hsized.hLength with h | h <;> rw [h] <;> decide
  · exact ⟨_, rfl, trivial⟩

end FakeDns.Channel
