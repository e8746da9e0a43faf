import SwitchTrade.Authority.Store
import Mathlib.Algebra.Group.Nat.Defs
import Mathlib.Tactic.Common

/-!
# Whom a request counts against

`_rate_identity` of `relay/server.py`. Behind a trusted proxy a request counts against the last
address of `X-Forwarded-For` that is not a trusted proxy's. What stands to the left of it the
client may have written itself.

The `ipaddress` module is a parameter: what it parses, which networks contain an address, and how
an address is written.
-/

namespace SwitchTrade.Relay

open Authority

universe u v

/-- What the relay uses of `ipaddress`; where it raises `ValueError` there is no value. -/
structure IpAddress (Address : Type u) (Network : Type v) where
  /-- `ip_address(value)`. -/
  address : String → Option Address
  /-- `ip_network(value, strict=False)`. -/
  network : String → Option Network
  /-- `address in network`. -/
  contains : Network → Address → Bool
  /-- `str(address)`. -/
  str : Address → String
  /-- An address is read back from how it is written. -/
  address_str : ∀ a, address (str a) = some a

variable {Address : Type u} {Network : Type v}

/-- The parts of a list between commas, but for the blank ones. -/
def entries (value : String) : List String :=
  (((value.toList.splitOn ',').map String.ofList).map strip).filter (· ≠ "")

namespace IpAddress

variable (ip : IpAddress Address Network)

/-- `any(address in network for network in networks)`. -/
def among (networks : List Network) (address : Address) : Bool :=
  networks.any fun network => ip.contains network address

/-- `_rate_identity`, of the host of the client, of `SWITCHTRADE_TRUSTED_PROXIES` and of the
header `X-Forwarded-For`. -/
def rateIdentity (client : Option String) (configured : String) (forwarded : Option String) :
    String :=
  let peer := client.getD "unknown"
  match ip.address peer, (entries configured).mapM ip.network with
  | some peerAddress, some networks =>
    if ip.among networks peerAddress then
      match (entries (forwarded.getD "")).mapM ip.address with
      | none => peer
      | some chain =>
        match chain.reverse.find? fun address => !ip.among networks address with
        | some address => ip.str address
        | none => peer
    else peer
  | _, _ => peer

/-! ## The entries of the header -/

variable {ip} {networks : List Network} {entry : String} {left right : List String}

/-- An entry that is the address of a trusted proxy. -/
def Trusted (ip : IpAddress Address Network) (networks : List Network) (entry : String) : Prop :=
  ∃ address, ip.address entry = some address ∧ ip.among networks address = true

/-- Every entry is an address. -/
def Parses (ip : IpAddress Address Network) (entries : List String) : Prop :=
  ∀ entry ∈ entries, (ip.address entry).isSome

theorem mapM_of_parses (h : Parses ip left) : ∃ chain, left.mapM ip.address = some chain := by
  induction left with
  | nil => exact ⟨[], rfl⟩
  | cons entry left ih =>
    obtain ⟨address, haddress⟩ := Option.isSome_iff_exists.mp (h entry List.mem_cons_self)
    obtain ⟨chain, hchain⟩ := ih fun e he => h e (List.mem_cons_of_mem _ he)
    refine ⟨address :: chain, ?_⟩
    rw [List.mapM_cons, haddress, hchain]
    rfl

theorem parses_of_mapM {chain : List Address} (h : left.mapM ip.address = some chain) :
    Parses ip left := by
  induction left generalizing chain with
  | nil => exact fun _ he => absurd he List.not_mem_nil
  | cons entry left ih =>
    simp only [List.mapM_cons, Option.pure_def, Option.bind_eq_bind, Option.bind_eq_some_iff] at h
    obtain ⟨address, haddress, rest, hrest, -⟩ := h
    intro e he
    rcases List.mem_cons.mp he with rfl | he
    · exact Option.isSome_iff_exists.mpr ⟨address, haddress⟩
    · exact ih hrest e he

/-- A trusted proxy's entries are passed over from the right. -/
theorem find_of_trusted {chain : List Address} (h : ∀ e ∈ right, Trusted ip networks e)
    (hchain : right.mapM ip.address = some chain) (rest : List Address) :
    (rest ++ chain).reverse.find? (fun address => !ip.among networks address) =
      rest.reverse.find? fun address => !ip.among networks address := by
  have hnone : chain.reverse.find? (fun address => !ip.among networks address) = none := by
    rw [List.find?_eq_none]
    intro address haddress
    have hmem := List.mem_reverse.mp haddress
    clear haddress
    induction right generalizing chain with
    | nil =>
      cases hchain
      cases hmem
    | cons entry right ih =>
      simp only [List.mapM_cons, Option.pure_def, Option.bind_eq_bind,
        Option.bind_eq_some_iff] at hchain
      obtain ⟨first, hfirst, others, hothers, hchain⟩ := hchain
      cases hchain
      rcases List.mem_cons.mp hmem with rfl | hmem
      · obtain ⟨address, haddress, htrusted⟩ := h entry List.mem_cons_self
        rw [hfirst] at haddress
        cases haddress
        simp [htrusted]
      · exact ih (fun e he => h e (List.mem_cons_of_mem _ he)) hothers hmem
  rw [List.reverse_append, List.find?_append, hnone, Option.none_or]

section

variable {client : Option String} {configured : String} {forwarded : Option String}
  {peerAddress : Address}
  (hpeer : ip.address (client.getD "unknown") = some peerAddress)
  (hnetworks : (entries configured).mapM ip.network = some networks)
  (hproxy : ip.among networks peerAddress = true)
  (hforwarded : entries (forwarded.getD "") = left ++ entry :: right)
  (hright : ∀ e ∈ right, Trusted ip networks e)

include hpeer hnetworks hproxy hforwarded hright

/-- The last address that is no trusted proxy's, if every entry is an address. -/
theorem rateIdentity_of_parses {address : Address} (hentry : ip.address entry = some address)
    (huntrusted : ip.among networks address = false) (hleft : Parses ip left) :
    ip.rateIdentity client configured forwarded = ip.str address := by
  obtain ⟨front, hfront⟩ := mapM_of_parses hleft
  have hparses : Parses ip right := by
    intro e he
    obtain ⟨a, ha, -⟩ := hright e he
    exact Option.isSome_iff_exists.mpr ⟨a, ha⟩
  obtain ⟨back, hback⟩ := mapM_of_parses hparses
  have hchain :
      (entries (forwarded.getD "")).mapM ip.address = some (front ++ [address] ++ back) := by
    rw [hforwarded, List.mapM_append, hfront, List.mapM_cons, hentry, hback]
    simp
  have hfind : (front ++ [address] ++ back).reverse.find?
      (fun a => !ip.among networks a) = some address := by
    rw [find_of_trusted hright hback, List.reverse_append, List.reverse_singleton,
      List.singleton_append, List.find?_cons_of_pos]
    simp [huntrusted]
  simp only [rateIdentity, hpeer, hnetworks, hproxy, if_true, hchain, hfind]

omit hright in
/-- The proxy itself, if an entry is no address. -/
theorem rateIdentity_of_malformed (hmalformed : ip.address entry = none ∨ ¬Parses ip left) :
    ip.rateIdentity client configured forwarded = client.getD "unknown" := by
  have hchain : (entries (forwarded.getD "")).mapM ip.address = none := by
    rw [Option.eq_none_iff_forall_ne_some]
    intro chain hchain
    have hall := parses_of_mapM hchain
    rw [hforwarded] at hall
    rcases hmalformed with hnone | hleft
    · have hsome := hall entry (List.mem_append_right _ List.mem_cons_self)
      rw [hnone] at hsome
      cases hsome
    · exact hleft fun e he => hall e (List.mem_append_left _ he)
  simp only [rateIdentity, hpeer, hnetworks, hproxy, if_true, hchain]

end

/-- Two requests from one trusted proxy whose headers agree from the last entry on that is no
trusted proxy's count against the same identity exactly if this entry is no address, or if on
its left either both headers have addresses only or neither has. -/
theorem rateIdentity_agree_iff {client : Option String} {configured : String}
    {peerAddress : Address} (hpeer : ip.address (client.getD "unknown") = some peerAddress)
    (hnetworks : (entries configured).mapM ip.network = some networks)
    (hproxy : ip.among networks peerAddress = true) {forwarded forwarded' : Option String}
    {left' : List String}
    (hforwarded : entries (forwarded.getD "") = left ++ entry :: right)
    (hforwarded' : entries (forwarded'.getD "") = left' ++ entry :: right)
    (hright : ∀ e ∈ right, Trusted ip networks e) (hentry : ¬Trusted ip networks entry) :
    ip.rateIdentity client configured forwarded = ip.rateIdentity client configured forwarded' ↔
      ip.address entry = none ∨ (Parses ip left ↔ Parses ip left') := by
  cases hparsed : ip.address entry with
  | none =>
    rw [rateIdentity_of_malformed hpeer hnetworks hproxy hforwarded (.inl hparsed),
      rateIdentity_of_malformed hpeer hnetworks hproxy hforwarded' (.inl hparsed)]
    exact iff_of_true rfl (.inl rfl)
  | some address =>
    have huntrusted : ip.among networks address = false := by
      rw [← Bool.not_eq_true]
      exact fun htrusted => hentry ⟨address, hparsed, htrusted⟩
    -- The address is not the proxy's, which is trusted.
    have hother : ip.str address ≠ client.getD "unknown" := by
      intro heq
      rw [← heq, ip.address_str, Option.some.injEq] at hpeer
      rw [hpeer, hproxy] at huntrusted
      cases huntrusted
    have hgood : ∀ {f : Option String} {l : List String},
        entries (f.getD "") = l ++ entry :: right → Parses ip l →
          ip.rateIdentity client configured f = ip.str address := fun hf hl =>
      rateIdentity_of_parses hpeer hnetworks hproxy hf hright hparsed huntrusted hl
    have hbad : ∀ {f : Option String} {l : List String},
        entries (f.getD "") = l ++ entry :: right → ¬Parses ip l →
          ip.rateIdentity client configured f = client.getD "unknown" := fun hf hl =>
      rateIdentity_of_malformed hpeer hnetworks hproxy hf (.inr hl)
    rw [or_iff_right nofun]
    by_cases hleft : Parses ip left <;> by_cases hleft' : Parses ip left'
    · rw [hgood hforwarded hleft, hgood hforwarded' hleft']
      exact iff_of_true rfl (iff_of_true hleft hleft')
    · rw [hgood hforwarded hleft, hbad hforwarded' hleft']
      exact iff_of_false hother fun hiff => hleft' (hiff.mp hleft)
    · rw [hbad hforwarded hleft, hgood hforwarded' hleft']
      exact iff_of_false hother.symm fun hiff => hleft (hiff.mpr hleft')
    · rw [hbad hforwarded hleft, hbad hforwarded' hleft']
      exact iff_of_true rfl (iff_of_false hleft hleft')

/-! ## Dotted quads -/

/-- `_parse_octet`. -/
def octet (part : List Char) : Option Nat :=
  let value := part.foldl (fun n c => 10 * n + (c.toNat - 48)) 0
  if part ≠ [] ∧ part.all (fun c => 48 ≤ c.toNat && c.toNat ≤ 57) ∧ part.length ≤ 3 ∧
      (part.head? = some '0' → part.length = 1) ∧ value ≤ 255 then some value else none

/-- The number of an address of four octets. -/
def octets (value : String) : Option Nat :=
  match (value.toList.splitOn '.').mapM octet with
  | some [a, b, c, d] => some (((a * 256 + b) * 256 + c) * 256 + d)
  | _ => none

/-- The IPv4 addresses, each under its only spelling, and the networks with a prefix length. -/
def v4 : IpAddress { value : String // (octets value).isSome } (Nat × Nat) where
  address value := if h : (octets value).isSome then some ⟨value, h⟩ else none
  network value :=
    match value.toList.splitOn '/' with
    | [base] => (octets (.ofList base)).map fun n => (n, 32)
    | [base, length] => do
      let n ← octets (.ofList base)
      let length ← octet length
      if length ≤ 32 then some (n, length) else none
    | _ => none
  contains network address :=
    (octets address.1).any fun n =>
      n / 2 ^ (32 - network.2) = network.1 / 2 ^ (32 - network.2)
  str address := address.1
  address_str address := dif_pos address.2

theorem v4_untrusted : ¬Trusted v4 [(10 * 2 ^ 24, 8)] "203.0.113.7" := by
  rintro ⟨address, haddress, htrusted⟩
  have hvalue : v4.address "203.0.113.7" = some ⟨"203.0.113.7", by decide +kernel⟩ := by
    decide +kernel
  rw [hvalue, Option.some.injEq] at haddress
  subst haddress
  revert htrusted
  decide +kernel

/-- Whatever addresses the client puts in front. -/
theorem rateIdentity_agree_spoofed :
    v4.rateIdentity (some "10.0.0.5") "10.0.0.0/8" (some "198.51.100.99, 203.0.113.7") =
      v4.rateIdentity (some "10.0.0.5") "10.0.0.0/8" (some "203.0.113.7") := by
  have hpeer : v4.address "10.0.0.5" = some ⟨"10.0.0.5", by decide +kernel⟩ := by decide +kernel
  have hnetworks : (entries "10.0.0.0/8").mapM v4.network = some [(10 * 2 ^ 24, 8)] := by
    decide +kernel
  have hforwarded : entries ((some "198.51.100.99, 203.0.113.7").getD "") =
      ["198.51.100.99"] ++ "203.0.113.7" :: [] := by decide +kernel
  have hforwarded' : entries ((some "203.0.113.7").getD "") = [] ++ "203.0.113.7" :: [] := by
    decide +kernel
  refine (@rateIdentity_agree_iff _ _ v4 _ _ _ _ (some "10.0.0.5") _ _ hpeer hnetworks
    (by decide +kernel) _ _ _ hforwarded hforwarded' nofun v4_untrusted).mpr (.inr ?_)
  have hleft : Parses v4 ["198.51.100.99"] := by
    intro e he
    rw [List.mem_singleton.mp he]
    decide +kernel
  exact iff_of_true hleft nofun

/-- Two headers that differ to the left of the client's address only, and in one of them the entry
there is no address. -/
theorem malformed_entry_moves_the_count :
    entries "198.51.100.99, 203.0.113.7" = ["198.51.100.99", "203.0.113.7"] ∧
      entries "unknown, 203.0.113.7" = ["unknown", "203.0.113.7"] ∧
      ¬Trusted v4 [(10 * 2 ^ 24, 8)] "203.0.113.7" ∧
      (entries "10.0.0.0/8").mapM v4.network = some [(10 * 2 ^ 24, 8)] ∧
      v4.rateIdentity (some "10.0.0.5") "10.0.0.0/8" (some "198.51.100.99, 203.0.113.7") =
        "203.0.113.7" ∧
      v4.rateIdentity (some "10.0.0.5") "10.0.0.0/8" (some "unknown, 203.0.113.7") =
        "10.0.0.5" := by
  refine ⟨?_, ?_, v4_untrusted, ?_, ?_, ?_⟩
  · decide +kernel
  · decide +kernel
  · decide +kernel
  · decide +kernel
  · decide +kernel

end IpAddress

end SwitchTrade.Relay
