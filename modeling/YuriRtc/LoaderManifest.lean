import YuriRtc.Protocol
import YuriRtc.SemVer
/-!
# LoaderManifest — signed descriptions of a loader

`validatePayload` and `decodeEnvelope` of `deploy/npm/src/integrity-loader.mjs`.  What the browser supplies (JSON, base64,
UTF-8, SHA-256 and signature verification) is a parameter.
-/
namespace YuriRtc

/-- What `JSON.parse` returns. -/
inductive Json where
  | null
  | bool (value : Bool)
  | number (value : Rat)
  | string (value : List Char)
  | array (items : List Json)
  | object (fields : List (List Char × Json))

namespace Json

/-- Optional chaining: `value?.name`. -/
def field (name : String) : Option Json → Option Json
  | some (.object fields) => fields.lookup name.toList
  | _ => none

/-- `value === text`. -/
def isText (text : String) : Option Json → Bool
  | some (.string value) => value == text.toList
  | _ => false

/-- `value === 1`. -/
def isOne : Option Json → Bool
  | some (.number value) => value == 1
  | _ => false

end Json

structure Platform where
  parseJson : List Char → Option Json
  decodeText : Bytes → List Char
  atob : List Char → Option Bytes
  btoa : Bytes → List Char
  digest : Bytes → Bytes
  verify : List Char → Bytes → Bytes → Bool

def cdnRoots : List String :=
  ["https://unpkg.com/", "https://cdn.jsdelivr.net/npm/", "https://esm.sh/", "https://unpkg.toolforge.org/",
    "https://s4.zstatic.net/npm/"]

def packageUrls (name : List Char) (version : List Char) (file : String) : List (List Char) :=
  cdnRoots.map fun root => root.toList ++ name ++ ['@'] ++ version ++ ['/'] ++ file.toList ++
    (if root = "https://esm.sh/" then "?raw".toList else [])

def loaderPackage : String := "@advwebrec/grainloading"

def exactLoaderUrls (version : List Char) : List (List Char) :=
  packageUrls loaderPackage.toList version "dist/bundle/client.js"

structure Descriptor where
  package : List Char
  version : List Char
  urls : List (List Char)
  sha256 : List Char
deriving DecidableEq, Repr

def isBase64urlChar (c : Char) : Bool :=
  c.isDigit || ('A' ≤ c && c ≤ 'Z') || ('a' ≤ c && c ≤ 'z') || c == '_' || c == '-'

/-- `matches`: an array of just these texts. -/
def matchesUrls (urls : List (List Char)) : Option Json → Bool
  | some (.array items) => items.length == urls.length &&
      (items.zip urls).all fun pair => match pair.1 with
        | .string value => value == pair.2
        | _ => false
  | _ => false

def validatePayload (payload : Option Json) : Except String Descriptor :=
  let loader := Json.field "loader" payload
  if Json.isOne (Json.field "schema" payload) = false ∨ Json.isText loaderPackage (Json.field "package" loader) = false then
    .error "manifest payload has an unsupported schema or package"
  else
    match Json.field "version" loader with
    | some (.string version) =>
      if (parseSemVer version).isNone then .error "manifest loader version is invalid"
      else
        match Json.field "sha256" loader with
        | some (.string sha256) =>
          if sha256.length ≠ 43 ∨ sha256.all isBase64urlChar = false then .error "manifest loader SHA-256 is invalid"
          else
            let expectedUrls := exactLoaderUrls version
            -- manifests of two sources, in the other order, are still accepted
            let legacyUrls := (expectedUrls.take 2).reverse
            if matchesUrls expectedUrls (Json.field "urls" loader) = false ∧
                matchesUrls legacyUrls (Json.field "urls" loader) = false then
              .error "manifest loader URLs are not the expected immutable CDN URLs"
            else .ok ⟨loaderPackage.toList, version, expectedUrls, sha256⟩
        | _ => .error "manifest loader SHA-256 is invalid"
    | _ => .error "manifest loader version is invalid"

section Envelope
variable (platform : Platform)

def decodeBase64url (label : String) : Option Json → Except String Bytes
  | some (.string value) =>
    if value = [] ∨ value.all isBase64urlChar = false then .error (label ++ " is not base64url")
    else
      let replaced := value.map fun c => if c = '-' then '+' else if c = '_' then '/' else c
      match platform.atob (replaced ++ "===".toList.drop ((value.length + 3) % 4)) with
      | some bytes => .ok bytes
      | none => .error "the string is not correctly encoded"
  | _ => .error (label ++ " is not base64url")

def encodeBase64url (value : Bytes) : List Char :=
  let replaced := (platform.btoa value).map fun c => if c = '+' then '-' else if c = '/' then '_' else c
  replaced.rdropWhile (· == '=')

/-- `sha256`: the digest as text. -/
def sha256Text (bytes : Bytes) : List Char := encodeBase64url platform (platform.digest bytes)

structure Decoded where
  descriptor : Descriptor
  payloadBytes : Bytes
  signature : Bytes
deriving DecidableEq, Repr

def decodeEnvelope (text : List Char) : Except String Decoded :=
  match platform.parseJson text with
  | none => .error "unexpected token"
  | some envelope =>
    let signature := Json.field "signature" (some envelope)
    if Json.isOne (Json.field "schema" (some envelope)) = false ∨
        Json.isText "ECDSA-P256-SHA256" (Json.field "algorithm" signature) = false then
      .error "manifest envelope has an unsupported schema or algorithm"
    else do
      let payloadBytes ← decodeBase64url platform "manifest payload" (Json.field "payload" (some envelope))
      match platform.parseJson (platform.decodeText payloadBytes) with
      | none => .error "unexpected token"
      | some payload =>
        let descriptor ← validatePayload (some payload)
        let signature ← decodeBase64url platform "manifest signature" (Json.field "value" signature)
        if signature.length ≠ 64 then .error "manifest signature has an invalid length"
        else .ok ⟨descriptor, payloadBytes, signature⟩

end Envelope

def SignedDescriptor (platform : Platform) (key : List Char) (descriptor : Descriptor) : Prop :=
  ∃ payload signature, platform.verify key signature payload = true ∧
    validatePayload (platform.parseJson (platform.decodeText payload)) = .ok descriptor

theorem validatePayload_version {payload : Option Json} {descriptor : Descriptor}
    (h : validatePayload payload = .ok descriptor) : ∃ version, parseSemVer descriptor.version = some version := by
  unfold validatePayload at h
  simp only at h
  split at h
  · cases h
  split at h
  · split at h
    · cases h
    rename_i hversion
    split at h
    · split at h
      · cases h
      split at h
      · cases h
      · cases h
        exact Option.ne_none_iff_exists'.1 (by simpa using hversion)
    · cases h
  · cases h

theorem exists_of_bind_ok {α β : Type} {x : Except String α} {f : α → Except String β} {b : β} (h : x >>= f = .ok b) :
    ∃ a, x = .ok a ∧ f a = .ok b := by
  cases x with
  | error text => cases h
  | ok a => exact ⟨a, rfl, h⟩

theorem decodeEnvelope_payload {platform : Platform} {text : List Char} {decoded : Decoded}
    (h : decodeEnvelope platform text = .ok decoded) :
    validatePayload (platform.parseJson (platform.decodeText decoded.payloadBytes)) = .ok decoded.descriptor := by
  unfold decodeEnvelope at h
  split at h
  · cases h
  simp only at h
  split at h
  · cases h
  obtain ⟨payloadBytes, -, h⟩ := exists_of_bind_ok h
  split at h
  · cases h
  rename_i payload hpayload
  obtain ⟨descriptor, hdescriptor, h⟩ := exists_of_bind_ok h
  obtain ⟨signature, -, h⟩ := exists_of_bind_ok h
  split at h
  · cases h
  cases h
  rw [hpayload]
  exact hdescriptor

end YuriRtc
