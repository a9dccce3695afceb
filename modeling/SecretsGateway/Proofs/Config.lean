import SecretsGateway.Proofs.Exchange.Congruence
import SecretsGateway.Proofs.Hex.Spelling
import SecretsGateway.Proofs.Message.Layout
import SecretsGateway.Proofs.Signing

/-!
# Configurations of nodes

A configuration makes a node if it is sound (`Config.IsSound`), and otherwise it is refused for the first thing that is wrong
with it (`Node.ofConfig_judges`). Of the configured key only its number is left in the node (`SigningKey.IsSpelt`), so nodes
whose keys are spelt differently answer every request the same.
-/

namespace SecretsGateway

open Secp256k1 (order generator)

namespace SigningKey

/-- The account that belongs to a secret. -/
def accountOf (secret : Nat) : Address := (Secp256k1.Point.mul secret generator).address

/-- A text spells a secret: after at most one mark `0x` an even number of digits, for 24 to 32 bytes, that stand for a number
from one to below the order. -/
structure IsSpelt (s : String) (secret : Nat) : Prop where
  digits : ∃ digits, Hex.Unmarks [['0', 'x']] s.toList digits ∧ (∀ c ∈ digits, Hex.IsDigit c) ∧ digits.length % 2 = 0 ∧
    24 ≤ digits.length / 2 ∧ digits.length / 2 ≤ 32 ∧ Hex.number digits = secret
  pos : 0 < secret
  lt_order : secret < order

variable {s : String} {key key' : SigningKey} {bs : Bytes} {secret : Nat}

private theorem address_eq_accountOf (key : SigningKey) : key.address = accountOf key.secret := rfl

private theorem eq_of_secret (h : key.secret = key'.secret) : key = key' := by
  cases key
  cases key'
  cases h
  rfl

private theorem IsSpelt.unique {secret' : Nat} (h : IsSpelt s secret) (h' : IsSpelt s secret') : secret = secret' := by
  obtain ⟨digits, hdigits, -, -, -, -, rfl⟩ := h.digits
  obtain ⟨digits', hdigits', -, -, -, -, rfl⟩ := h'.digits
  rw [← Hex.unmarks_iff.1 hdigits, ← Hex.unmarks_iff.1 hdigits']

private theorem IsSpelt.ne_empty (h : IsSpelt s secret) : s ≠ "" := by
  rintro rfl
  obtain ⟨digits, hunmarks, -, -, hmin, -⟩ := h.digits
  obtain rfl := Hex.unmarks_iff.1 hunmarks
  exact absurd hmin (by decide)

/-- Bytes are a key if there are 24 to 32 of them, for the number of the key. -/
private theorem ofBytes_cases (bs : Bytes) :
    (∃ key, ofBytes bs = .ok key ∧ 24 ≤ bs.length ∧ bs.length ≤ 32 ∧ bs.toNat = key.secret) ∨
    (ofBytes bs = .error .invalidKey ∧ ¬ (24 ≤ bs.length ∧ bs.length ≤ 32 ∧ 0 < bs.toNat ∧ bs.toNat < order)) := by
  unfold ofBytes
  split
  · next hlength => exact .inr ⟨rfl, by omega⟩
  · next hlength =>
    split
    · next hrange => exact .inl ⟨_, rfl, by omega, by omega, rfl⟩
    · next hrange => exact .inr ⟨rfl, fun h => hrange h.2.2⟩

private theorem isSpelt_of_decode? (h : Hex.decode? (Hex.unmarked s.toList) = some bs) (hmin : 24 ≤ bs.length)
    (hmax : bs.length ≤ 32)
    (hsecret : bs.toNat = secret) (hpos : 0 < secret) (hlt : secret < order) : IsSpelt s secret := by
  have hspells := Hex.decode?_eq_some_iff.1 h
  have hlength := hspells.length
  refine ⟨⟨_, Hex.unmarks_iff.2 rfl, hspells.isDigit, by omega, by omega, by omega, ?_⟩, hpos, hlt⟩
  rw [hspells.number_eq, hsecret]

/-- A key is read from a text that spells its secret, and from no other. -/
private theorem ofHex_cases (s : String) :
    (∃ key, ofHex s = .ok key ∧ IsSpelt s key.secret) ∨ (ofHex s = .error .invalidKey ∧ ∀ secret, ¬ IsSpelt s secret) := by
  unfold ofHex
  cases hread : Hex.decode? (Hex.unmarked s.toList) with
  | none =>
    refine .inr ⟨rfl, fun secret h => ?_⟩
    obtain ⟨digits, hunmarks, hall, heven, -⟩ := h.digits
    obtain ⟨bs, hbs⟩ := Hex.exists_spells_iff.2 ⟨heven, hall⟩
    rw [← Hex.unmarks_iff.1 hunmarks] at hbs
    rw [Hex.decode?_eq_some_iff.2 hbs] at hread
    cases hread
  | some bs =>
    rcases ofBytes_cases bs with ⟨key, hkey, hmin, hmax, hsecret⟩ | ⟨hkey, hbad⟩
    · exact .inl ⟨key, hkey, isSpelt_of_decode? hread hmin hmax hsecret key.pos key.lt_order⟩
    · have hspells := Hex.decode?_eq_some_iff.1 hread
      have hlength := hspells.length
      refine .inr ⟨hkey, fun secret h => hbad ?_⟩
      obtain ⟨digits, hunmarks, -, -, hmin, hmax, hsecret⟩ := h.digits
      obtain rfl := Hex.unmarks_iff.1 hunmarks
      rw [hspells.number_eq] at hsecret
      subst hsecret
      exact ⟨by omega, by omega, h.pos, h.lt_order⟩

end SigningKey

namespace Config

open SigningKey (IsSpelt accountOf)

/-- What can be wrong with a configuration. -/
inductive Flaw where
  | name
  | missingKey
  | badKey
  | address

/-- The flaws in the order in which they are looked for. -/
def Flaw.inOrder : List Flaw := [.name, .missingKey, .badKey, .address]

/-- A configuration has a flaw, and this is said of it. -/
inductive Objects (c : Config) : Flaw → ConfigError → Prop
  | name : (∀ letter ∈ c.serviceName.toList, Text.isBlank letter = true) → Objects c .name .emptyName
  | missingKey : c.privateKey = "" → Objects c .missingKey .missingKey
  | badKey : (∀ secret, ¬ IsSpelt c.privateKey secret) → Objects c .badKey (.badKey .invalidKey)
  | address {configured : Address} {secret : Nat} : c.nodeAddress = some configured → IsSpelt c.privateKey secret →
      configured ≠ accountOf secret → Objects c .address (.addressMismatch configured (accountOf secret))

/-- Nothing is wrong with a configuration, and its key is the secret: the service has a name that is not blank, the key is spelt,
and if there is an address, it is the account of the key. -/
structure IsSound (c : Config) (secret : Nat) : Prop where
  name : ∃ letter ∈ c.serviceName.toList, Text.isBlank letter = false
  key : IsSpelt c.privateKey secret
  address : ∀ configured ∈ c.nodeAddress, configured = accountOf secret

/-- This is said of the first flaw that a configuration has. -/
def ObjectsFirst (c : Config) (e : ConfigError) : Prop :=
  ∃ earlier flaw later, Flaw.inOrder = earlier ++ flaw :: later ∧ c.Objects flaw e ∧
    ∀ other ∈ earlier, ∀ e', ¬ c.Objects other e'

variable {c : Config} {flaw : Flaw} {e e' : ConfigError} {secret : Nat}

private theorem Objects.unique (h : c.Objects flaw e) (h' : c.Objects flaw e') : e = e' := by
  cases h with
  | name => cases h'; rfl
  | missingKey => cases h'; rfl
  | badKey => cases h'; rfl
  | address hconfigured hkey =>
    cases h' with
    | address hconfigured' hkey' =>
      rw [hconfigured] at hconfigured'
      cases hconfigured'
      rw [hkey.unique hkey']

private theorem ObjectsFirst.unique (h : c.ObjectsFirst e) (h' : c.ObjectsFirst e') : e = e' := by
  obtain ⟨earlier, flaw, later, horder, hobjects, hearlier⟩ := h
  obtain ⟨earlier', flaw', later', horder', hobjects', hearlier'⟩ := h'
  rcases eq_or_before (horder.symm.trans horder') with rfl | hflaw | hflaw
  · exact hobjects.unique hobjects'
  · exact absurd hobjects (hearlier' _ hflaw e)
  · exact absurd hobjects' (hearlier _ hflaw e')

private theorem IsSound.not_objects (h : c.IsSound secret) : ¬ c.Objects flaw e := by
  rintro (hblank | hmissing | hbad | ⟨hconfigured, hkey, hne⟩)
  · obtain ⟨letter, hmem, hletter⟩ := h.name
    rw [hblank letter hmem] at hletter
    cases hletter
  · exact h.key.ne_empty hmissing
  · exact hbad secret h.key
  · exact hne (hkey.unique h.key ▸ h.address _ hconfigured)

/-- A configuration is sound and gives its key, or it is refused for the first flaw that it has. -/
private theorem validate_cases (c : Config) :
    (∃ key, c.validate = .ok key ∧ c.IsSound key.secret) ∨ ∃ e, c.validate = .error e ∧ c.ObjectsFirst e := by
  -- One check after the other; each one that is passed is a flaw less that could come first.
  unfold validate
  by_cases hname : Text.isAllBlank c.serviceName = true
  · rw [if_pos hname]
    exact .inr ⟨_, rfl, [], .name, _, rfl, .name (List.all_eq_true.1 hname), nofun⟩
  rw [if_neg hname]
  have hnamed : ∀ e, ¬ c.Objects .name e := by
    rintro _ (hblank | _)
    exact hname (List.all_eq_true.2 hblank)
  have hletter : ∃ letter ∈ c.serviceName.toList, Text.isBlank letter = false := by
    simpa [Text.isAllBlank] using hname
  unfold signer
  by_cases hmissing : c.privateKey = ""
  · rw [if_pos hmissing]
    exact .inr ⟨_, rfl, [.name], .missingKey, _, rfl, .missingKey hmissing, by simpa using hnamed⟩
  rw [if_neg hmissing]
  have hgiven : ∀ e, ¬ c.Objects .missingKey e := by
    rintro _ (_ | h)
    exact hmissing h
  rcases SigningKey.ofHex_cases c.privateKey with ⟨key, hkey, hspelt⟩ | ⟨hkey, hbad⟩
  · rw [hkey]
    have hgood : ∀ e, ¬ c.Objects .badKey e := by
      rintro _ (_ | _ | h)
      exact h _ hspelt
    cases haddress : c.nodeAddress with
    | none => exact .inl ⟨key, rfl, hletter, hspelt, by simp [haddress]⟩
    | some configured =>
      by_cases hsame : configured = key.address
      · refine .inl ⟨key, if_pos hsame, hletter, hspelt, fun a ha => ?_⟩
        rw [haddress] at ha
        cases ha
        exact hsame
      · refine .inr ⟨_, if_neg hsame, [.name, .missingKey, .badKey], .address, [], rfl, .address haddress hspelt hsame, ?_⟩
        simpa using ⟨hnamed, hgiven, hgood⟩
  · rw [hkey]
    exact .inr ⟨_, rfl, [.name, .missingKey], .badKey, _, rfl, .badKey hbad, by simpa using ⟨hnamed, hgiven⟩⟩

end Config

/-! ### Nodes -/

namespace Node

open Config (IsSound Objects ObjectsFirst Flaw)
open SigningKey (IsSpelt accountOf)

variable {c : Config} {n : Node}

private theorem ofConfig_cases (c : Config) :
    (∃ n, ofConfig c = .ok n ∧ c.IsSound n.key.secret) ∨ ∃ e, ofConfig c = .error e ∧ c.ObjectsFirst e := by
  unfold ofConfig
  rcases c.validate_cases with ⟨key, hvalid, hsound⟩ | ⟨e, hrefused, hfirst⟩
  · rw [hvalid]
    exact .inl ⟨_, rfl, hsound⟩
  · rw [hrefused]
    exact .inr ⟨e, rfl, hfirst⟩

private theorem isSound_of_ofConfig (h : ofConfig c = .ok n) : c.IsSound n.key.secret := by
  rcases ofConfig_cases c with ⟨n', hn', hsound⟩ | ⟨e, hrefused, -⟩
  · rw [h] at hn'
    cases hn'
    exact hsound
  · rw [h] at hrefused
    cases hrefused

private theorem exists_of_isSound {secret : Nat} (h : c.IsSound secret) : ∃ n, ofConfig c = .ok n := by
  rcases ofConfig_cases c with ⟨n, hn, -⟩ | ⟨e, -, earlier, flaw, later, -, hobjects, -⟩
  · exact ⟨n, hn⟩
  · exact absurd hobjects h.not_objects

private theorem objectsFirst_iff {e : ConfigError} : ofConfig c = .error e ↔ c.ObjectsFirst e := by
  rcases ofConfig_cases c with ⟨n, hn, hsound⟩ | ⟨e', hrefused, hfirst⟩
  · rw [hn]
    refine iff_of_false nofun ?_
    rintro ⟨earlier, flaw, later, -, hobjects, -⟩
    exact hsound.not_objects hobjects
  · rw [hrefused]
    constructor
    · rintro ⟨⟩
      exact hfirst
    · intro h
      rw [h.unique hfirst]

/-- A configuration makes a node exactly if its service has a name that is not blank, its key is spelt in hexadecimal, for 24 to
32 bytes and a number from one to below the order, and an address, if there is one, is the account of the key. Otherwise it is
refused for the first flaw, in the order of name, missing key, bad key and address. The node has the account of the key. Nodes
whose keys are spelt differently, but for the same number, have the same key, and take the same course in every exchange, with
the same answers. -/
theorem ofConfig_judges (c : Config) :
    ((∃ n, ofConfig c = .ok n) ↔ ∃ secret, c.IsSound secret) ∧
    (∀ e, ofConfig c = .error e ↔ ∃ earlier flaw later, Flaw.inOrder = earlier ++ flaw :: later ∧ c.Objects flaw e ∧
      ∀ other ∈ earlier, ∀ e', ¬ c.Objects other e') ∧
    (∀ n secret, ofConfig c = .ok n → IsSpelt c.privateKey secret → n.key.secret = secret ∧ n.address = accountOf secret) ∧
    ∀ (c' : Config) (n n' : Node) (secret : Nat), ofConfig c = .ok n → ofConfig c' = .ok n' →
      IsSpelt c.privateKey secret → IsSpelt c'.privateKey secret → n.key = n'.key ∧
      ∀ (σ : Type) (parts : Collaborators σ) (d : Delivery) (state : σ) (moves : List (Move σ)),
        n.course parts d state moves = n'.course parts d state moves := by
  refine ⟨⟨?_, ?_⟩, fun e => objectsFirst_iff, fun n secret hn hkey => ?_, fun c' n n' secret hn hn' hkey hkey' => ?_⟩
  · rintro ⟨n, hn⟩
    exact ⟨_, isSound_of_ofConfig hn⟩
  · rintro ⟨secret, hsound⟩
    exact exists_of_isSound hsound
  · obtain rfl := (isSound_of_ofConfig hn).key.unique hkey
    exact ⟨rfl, n.key.address_eq_accountOf⟩
  · have hsecret := (isSound_of_ofConfig hn).key.unique hkey
    have hsecret' := (isSound_of_ofConfig hn').key.unique hkey'
    have hsame : n.key = n'.key := SigningKey.eq_of_secret (hsecret.trans hsecret'.symm)
    exact ⟨hsame, fun σ parts d state moves => course_of_key hsame parts d state moves⟩

namespace Five

/-- Twenty-four bytes after a mark. -/
def short : Config := ⟨"short", none, "0x000000000000000000000000000000000000000000000005"⟩

/-- Thirty-two bytes without a mark, and the address. -/
def long : Config := ⟨" long ", some .five, "0000000000000000000000000000000000000000000000000000000000000005"⟩

private theorem isSpelt_short : IsSpelt short.privateKey 5 := by
  have hread : Hex.decode? (Hex.unmarked short.privateKey.toList) = some (List.replicate 23 0 ++ [5]) := by decide
  exact SigningKey.isSpelt_of_decode? hread (by decide) (by decide) (by decide) (by decide) (by decide)

private theorem isSpelt_long : IsSpelt long.privateKey 5 := by
  have hread : Hex.decode? (Hex.unmarked long.privateKey.toList) = some (List.replicate 31 0 ++ [5]) := by decide
  exact SigningKey.isSpelt_of_decode? hread (by decide) (by decide) (by decide) (by decide) (by decide)

private theorem isSound_short : short.IsSound 5 := ⟨⟨'s', by decide, by decide⟩, isSpelt_short, nofun⟩

private theorem isSound_long : long.IsSound 5 := by
  refine ⟨⟨'l', by decide, by decide⟩, isSpelt_long, fun configured h => ?_⟩
  cases h
  exact SigningKey.address_five.symm

theorem ofConfig_judged_five : ∃ n n', ofConfig short = .ok n ∧ ofConfig long = .ok n' ∧ n.address = n'.address ∧
    ∀ (σ : Type) (parts : Collaborators σ) (d : Delivery) (state : σ) (moves : List (Move σ)),
      n.course parts d state moves = n'.course parts d state moves := by
  obtain ⟨hshort, -, haddress, hsame⟩ := ofConfig_judges short
  obtain ⟨hlong, -, haddress', -⟩ := ofConfig_judges long
  obtain ⟨n, hn⟩ := hshort.2 ⟨5, isSound_short⟩
  obtain ⟨n', hn'⟩ := hlong.2 ⟨5, isSound_long⟩
  refine ⟨n, n', hn, hn', ?_, (hsame long n n' 5 hn hn' isSpelt_short isSpelt_long).2⟩
  rw [(haddress n 5 hn isSpelt_short).2, (haddress' n' 5 hn' isSpelt_long).2]

end Five

end Node

end SecretsGateway
