import AppPort.ApiKeys.Service
import Mathlib.Data.Set.Function

/-!
# Issued secrets

What a secret that `issue` gives out is accepted by: its prefix is the one stored, and its
hash takes it back under the verification key it was made with, and nothing else.

A stored hash is read back by splitting it at `$`, so what matters is that no part has a
`$` in it; the two forms of a hash then differ only in what is hashed.
-/

namespace AppPort

open Effects

variable {τ : Type} {node : KeyRuntime}

theorem utf8_injective : Function.Injective utf8 := by
  intro s t h
  have hdata : s.toByteArray.data = t.toByteArray.data := Array.toList_inj.mp h
  exact String.toByteArray_inj.mp (ByteArray.ext hdata)

theorem SizedBytes.ne_nil {size : Nat} (h : 0 < size) (bytes : SizedBytes size) :
    bytes.val ≠ [] := by
  intro hnil
  have hlength := bytes.property
  rw [hnil, List.length_nil] at hlength
  omega

/-! ## The prefix -/

theorem isLowerHex_digit {n : Nat} (h : n < 16) : isLowerHex (lowerHexDigit n) = true := by
  interval_cases n <;> decide

theorem toHex_toList (bytes : List UInt8) : (toHex bytes).toList =
    bytes.flatMap fun b => [lowerHexDigit (b.toNat / 16), lowerHexDigit (b.toNat % 16)] :=
  String.toList_ofList

theorem length_toHex (bytes : List UInt8) : (toHex bytes).toList.length = 2 * bytes.length := by
  rw [toHex_toList, List.length_flatMap]
  simp [Nat.mul_comm]

theorem all_isLowerHex_toHex (bytes : List UInt8) : (toHex bytes).toList.all isLowerHex = true := by
  rw [toHex_toList, List.all_eq_true]
  intro c hc
  obtain ⟨b, -, hb⟩ := List.mem_flatMap.mp hc
  have hlt := b.toNat_lt
  rcases List.mem_pair.mp hb with rfl | rfl
  · exact isLowerHex_digit (by omega)
  · exact isLowerHex_digit (by omega)

theorem notLineBreak_symbol {n : Nat} (h : n < 64) : notLineBreak (Base64url.symbol n) = true := by
  interval_cases n <;> decide

theorem symbol_ne_dollar {n : Nat} (h : n < 64) : Base64url.symbol n ≠ '$' := by
  interval_cases n <;> decide

/-- **The prefix of a secret that was put together is the prefix it was put together
from.** -/
theorem parseApiKeyPrefix_issued {head bytes : List UInt8} (hhead : head.length = 3)
    (hbytes : bytes ≠ []) :
    parseApiKeyPrefix (API_KEY_SCHEME ++ "_" ++ toHex head ++ "_" ++ Base64url.encode bytes) =
      some (API_KEY_SCHEME ++ "_" ++ toHex head) := by
  have hlength : (toHex head).toList.length = 6 := by
    rw [length_toHex, hhead]
  have hhex := all_isLowerHex_toHex head
  have hchars : (API_KEY_SCHEME ++ "_" ++ toHex head ++ "_" ++ Base64url.encode bytes).toList =
      (API_KEY_SCHEME ++ "_").toList ++
        ((toHex head).toList ++ '_' :: (Base64url.encode bytes).toList) := by
    simp [String.toList_append]
  have hrest : (Base64url.encode bytes).toList.all notLineBreak = true := by
    rw [List.all_eq_true]
    intro c hc
    obtain ⟨n, hn, rfl⟩ := Base64url.mem_encode hc
    exact notLineBreak_symbol hn
  have hsome : (Base64url.encode bytes).toList.isEmpty = false := by
    rw [List.isEmpty_eq_false_iff]
    intro hnil
    exact Base64url.encode_ne_empty hbytes (String.toList_eq_nil_iff.mp hnil)
  have htake : (((API_KEY_SCHEME ++ "_").toList ++
      ((toHex head).toList ++ '_' :: (Base64url.encode bytes).toList)).drop
        (API_KEY_SCHEME ++ "_").toList.length).take 6 = (toHex head).toList := by
    rw [List.drop_left, ← hlength, List.take_left]
  have hdrop : ((API_KEY_SCHEME ++ "_").toList ++
      ((toHex head).toList ++ '_' :: (Base64url.encode bytes).toList)).drop
        ((API_KEY_SCHEME ++ "_").toList.length + 6) = '_' :: (Base64url.encode bytes).toList := by
    rw [← hlength, ← List.drop_drop, List.drop_left, List.drop_left]
  have hscheme : (API_KEY_SCHEME ++ "_").toList.isPrefixOf ((API_KEY_SCHEME ++ "_").toList ++
      ((toHex head).toList ++ '_' :: (Base64url.encode bytes).toList)) = true := by
    rw [List.isPrefixOf_iff_prefix]
    exact List.prefix_append _ _
  have hprefix : String.ofList ((API_KEY_SCHEME ++ "_").toList ++ (toHex head).toList) =
      API_KEY_SCHEME ++ "_" ++ toHex head := by
    rw [← String.toList_append, String.ofList_toList]
  simp only [parseApiKeyPrefix, hchars, htake, hdrop, hscheme, hhex, hsome, hrest, hprefix,
    Bool.not_false, Bool.and_self, if_true]

/-! ## The hash -/

/-- The salt of a stored hash. -/
def storedSalt (encodedHash : String) : List UInt8 :=
  match (encodedHash.toList.splitOn '$').map String.ofList with
  | _ :: saltValue :: _ => Base64url.decode saltValue
  | _ => []

theorem dollar_notMem_encode (bytes : List UInt8) : '$' ∉ (Base64url.encode bytes).toList := by
  intro h
  obtain ⟨n, hn, hsymbol⟩ := Base64url.mem_encode h
  exact symbol_ne_dollar hn hsymbol.symm

/-- The parts of a stored hash, as they are read back. -/
theorem split_hash {algorithm : String} (halgorithm : '$' ∉ algorithm.toList)
    (salt digest : List UInt8) :
    ((algorithm ++ ("$" ++ (Base64url.encode salt ++ ("$" ++ Base64url.encode digest)))).toList.splitOn
        '$').map String.ofList =
      [algorithm, Base64url.encode salt, Base64url.encode digest] := by
  have hchars : (algorithm ++ ("$" ++ (Base64url.encode salt ++
      ("$" ++ Base64url.encode digest)))).toList =
      algorithm.toList ++ '$' :: ((Base64url.encode salt).toList ++
        '$' :: (Base64url.encode digest).toList) := by
    simp [String.toList_append]
  have hlast : (Base64url.encode digest).toList.splitOn '$' = [(Base64url.encode digest).toList] :=
    List.splitOn_eq_singleton (dollar_notMem_encode digest)
  rw [hchars, List.splitOn_append_cons_self_of_not_mem halgorithm,
    List.splitOn_append_cons_self_of_not_mem (dollar_notMem_encode salt), hlast]
  simp only [List.map_cons, List.map_nil, String.ofList_toList]

theorem scrypt_plain : '$' ∉ "scrypt".toList := by
  decide

theorem hmac_plain : '$' ∉ "hmac-scrypt".toList := by
  decide

theorem scrypt_form (rest : String) : "scrypt$" ++ rest = "scrypt" ++ ("$" ++ rest) := by
  rw [← String.append_assoc]
  rfl

theorem hmac_form (rest : String) : "hmac-scrypt$" ++ rest = "hmac-scrypt" ++ ("$" ++ rest) := by
  rw [← String.append_assoc]
  rfl

theorem storedSalt_hashSecret (secret : String) (salt : List UInt8)
    (verifierKey : Option (List UInt8)) :
    storedSalt (hashSecret node secret salt verifierKey) = salt := by
  cases verifierKey with
  | none =>
    have hparts := split_hash scrypt_plain salt
      (node.scrypt (utf8 secret) salt 32).val
    simp only [storedSalt, hashSecret, scrypt_form, hparts, Base64url.decode_encode]
  | some key =>
    have hparts := split_hash hmac_plain salt
      (node.scrypt (verifierInput node secret key) salt 32).val
    simp only [storedSalt, hashSecret, hmac_form, hparts, Base64url.decode_encode]

/-- What is hashed has the digest of what was hashed. -/
def agree (node : KeyRuntime) (salt presented issued : List UInt8) : SecretVerification :=
  if (node.scrypt presented salt 32).val = (node.scrypt issued salt 32).val then .verified
  else .refused

theorem agree_eq_verified {salt presented issued : List UInt8} :
    agree node salt presented issued = .verified ↔
      (node.scrypt presented salt 32).val = (node.scrypt issued salt 32).val := by
  unfold agree
  split <;> simp_all

theorem agree_ne_unavailable {salt presented issued : List UInt8} :
    agree node salt presented issued ≠ .verifierUnavailable := by
  unfold agree
  split <;> simp

/-- A digest that was stored is compared as it was made. -/
theorem digestMatches_encode (input issued salt : List UInt8) :
    digestMatches node input (Base64url.encode salt)
      (Base64url.encode (node.scrypt issued salt 32).val) = agree node salt input issued := by
  have hlength : (node.scrypt issued salt 32).val.length = 32 := (node.scrypt issued salt 32).property
  unfold digestMatches agree
  rw [Base64url.decode_encode, Base64url.decode_encode]
  show (if (node.scrypt input salt (node.scrypt issued salt 32).val.length).val =
    (node.scrypt issued salt 32).val then SecretVerification.verified else .refused) = _
  rw [hlength]

/-- **What a stored hash takes back.** -/
theorem verifySecret_hashSecret {salt : List UInt8} (hsalt : salt ≠ []) (secret presented : String)
    (issued configured : Option (List UInt8)) :
    verifySecret node presented (hashSecret node secret salt issued) configured =
      match issued, configured with
      | none, _ => agree node salt (utf8 presented) (utf8 secret)
      | some _, none => .verifierUnavailable
      | some key, some key' =>
        agree node salt (verifierInput node presented key') (verifierInput node secret key) := by
  have hsalt : Base64url.encode salt ≠ "" := Base64url.encode_ne_empty hsalt
  have hdigest (input : List UInt8) : Base64url.encode (node.scrypt input salt 32).val ≠ "" :=
    Base64url.encode_ne_empty ((node.scrypt input salt 32).ne_nil (by decide))
  cases issued with
  | none =>
    have hparts := split_hash scrypt_plain salt
      (node.scrypt (utf8 secret) salt 32).val
    simp only [verifySecret, hashSecret, scrypt_form, hparts, hsalt, hdigest, or_self, if_false,
      if_true, digestMatches_encode]
  | some key =>
    have hparts := split_hash hmac_plain salt
      (node.scrypt (verifierInput node secret key) salt 32).val
    have hform : ("hmac-scrypt" : String) ≠ "scrypt" := by decide
    cases configured with
    | none =>
      simp only [verifySecret, hashSecret, hmac_form, hparts, hsalt, hdigest, hform, or_self,
        if_false, if_true]
    | some key' =>
      simp only [verifySecret, hashSecret, hmac_form, hparts, hsalt, hdigest, hform, or_self,
        if_false, if_true, digestMatches_encode]

/-! ## Issued keys -/

/-- What verifying may hash, of these secrets under these verification keys. -/
def scryptInputs (node : KeyRuntime) (keys : List (List UInt8)) (secrets : List String) :
    List (List UInt8) :=
  secrets.flatMap fun secret => utf8 secret :: keys.map (verifierInput node secret)

/-- Among these secrets and verification keys, and under this salt, no two hashes are
one. -/
structure HashedApart (node : KeyRuntime) (salt : List UInt8) (keys : List (List UInt8))
    (secrets : List String) : Prop where
  hmac : ∀ key ∈ keys, ∀ key' ∈ keys, ∀ secret ∈ secrets, ∀ secret' ∈ secrets,
    node.hmac key (utf8 secret) = node.hmac key' (utf8 secret') → key = key' ∧ secret = secret'
  scrypt : ∀ input ∈ scryptInputs node keys secrets, ∀ input' ∈ scryptInputs node keys secrets,
    (node.scrypt input salt 32).val = (node.scrypt input' salt 32).val → input = input'

namespace HashedApart

variable {salt : List UInt8} {keys : List (List UInt8)} {secrets : List String}

/-- Without a verification key the text itself is what is hashed. -/
theorem agree_text (h : HashedApart node salt keys secrets) {presented secret : String}
    (hpresented : presented ∈ secrets) (hsecret : secret ∈ secrets) :
    agree node salt (utf8 presented) (utf8 secret) = .verified ↔ presented = secret := by
  rw [agree_eq_verified]
  constructor
  · intro hdigest
    refine utf8_injective (h.scrypt _ ?_ _ ?_ hdigest)
    · exact List.mem_flatMap.mpr ⟨presented, hpresented, List.mem_cons_self⟩
    · exact List.mem_flatMap.mpr ⟨secret, hsecret, List.mem_cons_self⟩
  · rintro rfl
    rfl

/-- With one, the text and the key are. -/
theorem agree_keyed (h : HashedApart node salt keys secrets) {presented secret : String}
    {key key' : List UInt8} (hpresented : presented ∈ secrets) (hsecret : secret ∈ secrets)
    (hkey' : key' ∈ keys) (hkey : key ∈ keys) :
    agree node salt (verifierInput node presented key') (verifierInput node secret key) = .verified ↔
      key' = key ∧ presented = secret := by
  rw [agree_eq_verified]
  constructor
  · intro hdigest
    refine h.hmac _ hkey' _ hkey _ hpresented _ hsecret (h.scrypt _ ?_ _ ?_ hdigest)
    · exact List.mem_flatMap.mpr ⟨presented, hpresented,
        List.mem_cons_of_mem _ (List.mem_map_of_mem hkey')⟩
    · exact List.mem_flatMap.mpr ⟨secret, hsecret,
        List.mem_cons_of_mem _ (List.mem_map_of_mem hkey)⟩
  · rintro ⟨rfl, rfl⟩
    rfl

end HashedApart

namespace ApiKeyService

variable {service : ApiKeyService}

/-- What is issued was put together from bytes that were drawn. -/
theorem yields_issue (input : IssueInput τ) :
    Task.Yields (S := services τ) (fun issued => ∃ (head : SizedBytes 3)
        (bytes : SizedBytes SECRET_BYTES) (salt : SizedBytes SALT_BYTES),
      issued.1.keyPrefix = API_KEY_SCHEME ++ "_" ++ toHex head.val ∧
      issued.2 = issued.1.keyPrefix ++ "_" ++ Base64url.encode bytes.val ∧
      issued.1.secretHash = hashSecret service.node issued.2 salt.val service.verifierKey)
      (service.issue input) := by
  unfold issue
  refine Task.Yields.of_bind fun head => Task.Yields.of_bind fun bytes => ?_
  refine Task.Yields.of_bind fun id => Task.Yields.of_bind fun salt => ?_
  exact Task.Yields.of_bind fun createdAt => ⟨head, bytes, salt, rfl, rfl, rfl⟩

/-- **An issued secret is taken back under the verification key it was issued with, and
nothing else is.** Its prefix is the one that is stored; a key that was issued without a
verification key goes on being taken when there is one; and the verifier is unavailable
where it was issued with one and there is none. -/
theorem issued_secret_verifies {input : IssueInput τ} {apiKey : ApiKey τ} {secret : String}
    (hissued : Task.Resolves (S := services τ) (service.issue input) (.ok (apiKey, secret)))
    (presented : String) (configured : Option (List UInt8))
    (hapart : HashedApart service.node (storedSalt apiKey.secretHash)
      (service.verifierKey.toList ++ configured.toList) [secret, presented]) :
    parseApiKeyPrefix secret = some apiKey.keyPrefix ∧
    (verifySecret service.node secret apiKey.secretHash configured = .verified ↔
      service.verifierKey = none ∨ configured = service.verifierKey) ∧
    (verifySecret service.node presented apiKey.secretHash configured = .verifierUnavailable ↔
      service.verifierKey.isSome ∧ configured = none) ∧
    (presented ≠ secret →
      verifySecret service.node presented apiKey.secretHash configured ≠ .verified) := by
  obtain ⟨head, bytes, salt, hprefix, hsecret, hhash⟩ := (yields_issue input).resolved hissued
  simp only at hprefix hsecret hhash
  have hsalt : salt.val ≠ [] := SizedBytes.ne_nil (by decide) salt
  rw [hhash, storedSalt_hashSecret] at hapart
  have hmemSecret : secret ∈ [secret, presented] := List.mem_cons_self
  have hmemPresented : presented ∈ [secret, presented] :=
    List.mem_cons_of_mem _ List.mem_cons_self
  refine ⟨?_, ?_⟩
  · rw [hsecret, hprefix]
    exact parseApiKeyPrefix_issued head.property (SizedBytes.ne_nil (by decide) bytes)
  rw [hhash, verifySecret_hashSecret hsalt, verifySecret_hashSecret hsalt]
  cases hkey : service.verifierKey with
  | none =>
    -- the text itself was hashed
    rw [hkey] at hapart
    refine ⟨?_, ?_, ?_⟩
    · have hself := hapart.agree_text hmemSecret hmemSecret
      simp [hself]
    · have hnever : agree service.node salt.val (utf8 presented) (utf8 secret) ≠
        .verifierUnavailable := agree_ne_unavailable
      simp [hnever]
    · intro hne hverified
      exact hne ((hapart.agree_text hmemPresented hmemSecret).mp hverified)
  | some key =>
    rw [hkey] at hapart
    cases configured with
    | none => simp
    | some key' =>
      have hmemKey : key ∈ (some key).toList ++ (some key').toList := by simp
      have hmemKey' : key' ∈ (some key).toList ++ (some key').toList := by simp
      refine ⟨?_, ?_, ?_⟩
      · have hself := hapart.agree_keyed hmemSecret hmemSecret hmemKey' hmemKey
        simp [hself]
      · have hnever : agree service.node salt.val (verifierInput service.node presented key')
          (verifierInput service.node secret key) ≠ .verifierUnavailable := agree_ne_unavailable
        simp [hnever]
      · intro hne hverified
        exact hne ((hapart.agree_keyed hmemPresented hmemSecret hmemKey' hmemKey).mp hverified).2

section sample

/-- The bytes of a number, the highest first. -/
def bigEndian (size n : Nat) : List UInt8 :=
  (List.range size).map fun i => UInt8.ofNat (n / 256 ^ (size - 1 - i))

def sampleSecret : String := "app_live_1fa20b_AAECAwQFBgcICQoLDA0ODxAREhMUFRYXGBkaGxwdHh8"

/-- Another secret of the same prefix. -/
def sampleOther : String := "app_live_1fa20b___________________________________________8"

def sampleKey : List UInt8 := List.replicate 32 7

def sampleOtherKey : List UInt8 := List.replicate 32 8

/-- HMAC-SHA256 of the two secrets under the two keys. -/
def sampleHmac (key secret : List UInt8) : List UInt8 :=
  bigEndian 32 (match decide (key = sampleKey), decide (secret = utf8 sampleSecret) with
    | true, true => 0x813fa20eb0ee0bd2ca2a8c18e819c406ccf7497b24304b729cff477a73031c9f
    | true, false => 0xb00fa2b7c14b430dbba57ac33d8f9e6308e52cd44864a710554e36003c0d9c04
    | false, true => 0x52e0e38e7ba8bc04748387cd00e65fbae3bfc5e08f5dd215a29ac752c3eb163b
    | false, false => 0x5dfff3883d512a9d593ed3cbeb7fdb0d72ab0abafeb4c2ff84acb192a5a6bf74)

/-- scrypt under the bytes 100 to 115 of what is hashed of the two secrets: of the texts,
which begin with 97 and differ at the 17th byte, and of their four codes. -/
def sampleScrypt (input : List UInt8) : List UInt8 :=
  bigEndian 32 (match input.headD 0, input.getD 16 0 with
    | 97, 65 => 0xb5099eb96b74a1d6d697e92fa11f7e64b808d13c2d0f401f05280f284046e70d
    | 97, _ => 0x29bbfd1f1b4d1abdfdde901a0ad6f8d738523dd753f51ed62b17b23d68ecc88d
    | 129, _ => 0xafadc73e78b01fa04c6d7362836807b205cb885f4fa89c0db04e80d6c5a448a8
    | 176, _ => 0x1a4096cb9ab447d50e5d1a2620d0d4435c619d0159adb1121bf19b3d22172528
    | 82, _ => 0x20099df91a81572078d7139000a4a80955ca729e5ca8074dbb85b8ce9392f7b5
    | _, _ => 0x19fa33d508c280be361f98a8b74df79dccbd0203e73917f5c3aa3dd6b74d9abb)

def sampleRuntime : KeyRuntime where
  hmac := sampleHmac
  scrypt input _ keylen := ⟨(sampleScrypt input ++ List.replicate keylen 0).take keylen, by simp⟩
  localeCompare := compare

def sampleService : ApiKeyService where
  node := sampleRuntime
  applicationId := "crm"
  authority := none
  verifierKey := some sampleKey

def sampleSalt : List UInt8 := (List.range 16).map fun i => UInt8.ofNat (100 + i)

def sampleApiKey : ApiKey Nat where
  id := "k1"
  tenantId := "acme"
  applicationId := some "crm"
  name := "deploy"
  keyPrefix := "app_live_1fa20b"
  secretHash := hashSecret sampleRuntime sampleSecret sampleSalt (some sampleKey)
  createdAt := 0
  createdBy := "u1"

theorem sample_issued : Task.Resolves (S := services Nat)
    (sampleService.issue { tenantId := "acme", name := "deploy", createdBy := "u1" })
    (.ok (sampleApiKey, sampleSecret)) := by
  have hprefix : API_KEY_SCHEME ++ "_" ++ toHex (bigEndian 3 0x1fa20b) = "app_live_1fa20b" := by
    decide +kernel
  have hsecret : "app_live_1fa20b" ++ "_" ++
      Base64url.encode ((List.range 32).map UInt8.ofNat) = sampleSecret := by decide +kernel
  refine ⟨.ok ⟨bigEndian 3 0x1fa20b, by decide⟩, .ok ⟨(List.range 32).map UInt8.ofNat, by decide⟩,
    .ok "k1", .ok ⟨sampleSalt, by decide⟩, .ok 0, ?_⟩
  simp only [Task.settled_settleWith, hprefix, hsecret]
  rfl

theorem issued_secret_verifies_sample :
    parseApiKeyPrefix sampleSecret = some sampleApiKey.keyPrefix ∧
    (verifySecret sampleRuntime sampleSecret sampleApiKey.secretHash (some sampleOtherKey) =
      .verified ↔ some sampleKey = none ∨ some sampleOtherKey = some sampleKey) ∧
    (verifySecret sampleRuntime sampleOther sampleApiKey.secretHash (some sampleOtherKey) =
      .verifierUnavailable ↔ (some sampleKey).isSome ∧ some sampleOtherKey = none) ∧
    (sampleOther ≠ sampleSecret →
      verifySecret sampleRuntime sampleOther sampleApiKey.secretHash (some sampleOtherKey) ≠
        .verified) :=
  issued_secret_verifies sample_issued sampleOther (some sampleOtherKey)
    { hmac := by decide +kernel
      scrypt := by decide +kernel }

end sample

end ApiKeyService

end AppPort
