import ForgetOps.Agent.DestructiveErase
import ForgetOps.Library.Base64Url
import ForgetOps.Sdk.NonceStores

/-
  What the TypeScript adapter asks of a request before it looks at its body
  (`sdk/typescript/src/{create-adapter,signature}.ts`): the route, the size, the signature with its
  timestamp, and a nonce that has not been used.

  `Date.parse`, the MAC of an envelope and the digest of a body are functions of `Cryptography`.
-/

namespace ForgetOps.AdapterSdk

structure AdapterRequest where
  path : String
  method : String
  contentType : String
  /-- `Number(headers.get("content-length"))`, where it is finite. -/
  contentLength : Option Nat
  body : List UInt8
  timestamp : String
  nonce : String
  signature : String
  deriving DecidableEq, Repr

structure Cryptography where
  dateParse : String → Option Int
  mac : List UInt8 → Connector.SignatureEnvelope → List UInt8
  hexDigest : List UInt8 → String

/-- An adapter as `createForgetOpsAdapter` makes it. -/
structure Adapter where
  cryptography : Cryptography
  secret : List UInt8
  maxPayloadBytes : Nat
  secret_length : 32 ≤ secret.length

structure ErrorResponse where
  status : Nat
  code : String
  deriving DecidableEq, Repr

def routes : List String :=
  ["/forgetops/v1/health", "/forgetops/v1/discover", "/forgetops/v1/export",
    "/forgetops/v1/erase", "/forgetops/v1/verify"]

def contentTypeJson : String := "application/json"

def adapterAcceptanceWindowMs : Int := 60000

/-! ## The signature -/

/-- The text behind a shape, in which `d` is a digit and every other character itself. -/
def afterShape : List Char → List Char → Option (List Char)
  | [], rest => some rest
  | _ :: _, [] => none
  | p :: ps, c :: cs =>
    if (if p = 'd' then c.isDigit else c = p) then afterShape ps cs else none

/-- `/^\d{4}-\d{2}-\d{2}T\d{2}:\d{2}:\d{2}(?:\.\d{1,9})?Z$/`. -/
def rfc3339Utc (timestamp : String) : Bool :=
  match afterShape "dddd-dd-ddTdd:dd:dd".toList timestamp.toList with
  | some ['Z'] => true
  | some ('.' :: rest) =>
    rest.getLast? = some 'Z' ∧ 1 ≤ rest.dropLast.length ∧ rest.dropLast.length ≤ 9 ∧
      rest.dropLast.all Char.isDigit
  | _ => false

def isUrlSafe (c : Char) : Bool := c.isAlphanum ∨ c = '_' ∨ c = '-'

/-- `/^[A-Za-z0-9_-]{16,128}$/`. -/
def validNonce (nonce : String) : Bool :=
  16 ≤ nonce.toList.length ∧ nonce.toList.length ≤ 128 ∧ nonce.toList.all isUrlSafe

def decodeBase64Url (value : String) : Option (List UInt8) :=
  if value ≠ "" ∧ value.toList.all isUrlSafe then
    (Base64Url.decode value.toList).filter fun bytes => Base64Url.encode bytes = value.toList
  else none

def signatureEnvelope (c : Cryptography) (request : AdapterRequest) :
    Connector.SignatureEnvelope where
  bodyDigest := "sha256:" ++ c.hexDigest request.body
  contentType := request.contentType
  method := request.method
  nonce := request.nonce
  path := request.path
  timestamp := request.timestamp
  messageType := "forgetops.adapter-request"
  version := 1

def verifyAdapterSignature (c : Cryptography) (secret : List UInt8) (request : AdapterRequest)
    (nowMs : Int) : Bool :=
  if secret.length < 32 ∨ request.method ≠ request.method.toUpper ∨
      request.path.toList.head? ≠ some '/' ∨ rfc3339Utc request.timestamp = false ∨
      validNonce request.nonce = false then false
  else
    match c.dateParse request.timestamp with
    | none => false
    | some timestampMs =>
      if |nowMs - timestampMs| > adapterAcceptanceWindowMs then false
      else decodeBase64Url request.signature = some (c.mac secret (signatureEnvelope c request))

/-! ## Up to the nonce -/

namespace Adapter

/-- `fetch` up to the signature. -/
def checkRequest (a : Adapter) (request : AdapterRequest) (nowMs : Int) :
    Except ErrorResponse Unit :=
  if request.path ∉ routes then throw ⟨404, "ADAPTER_ROUTE_NOT_FOUND"⟩
  else if request.method ≠ "POST" then throw ⟨405, "ADAPTER_METHOD_NOT_ALLOWED"⟩
  else if request.contentType ≠ contentTypeJson ∨
      (request.contentLength.any fun length => a.maxPayloadBytes < length) = true then
    throw ⟨413, "ADAPTER_PAYLOAD_INVALID"⟩
  else if a.maxPayloadBytes < request.body.length then throw ⟨413, "ADAPTER_PAYLOAD_TOO_LARGE"⟩
  else if verifyAdapterSignature a.cryptography a.secret request nowMs = false then
    throw ⟨401, "ADAPTER_SIGNATURE_INVALID"⟩
  else pure ()

variable {σ : Type}

/-- `fetch` up to the body, with the nonce store it leaves. -/
def acceptRequest (a : Adapter) (store : ReplayGuard String σ FileIo) (s : σ) (io : FileIo)
    (request : AdapterRequest) (nowMs : Int) : Except ErrorResponse Unit × σ :=
  match a.checkRequest request nowMs with
  | .error e => (.error e, s)
  | .ok () =>
    match store.consume s io request.nonce (nowMs + adapterAcceptanceWindowMs) nowMs with
    | (.ok true, s') => (.ok (), s')
    | (.ok false, s') => (.error ⟨401, "ADAPTER_NONCE_REPLAYED"⟩, s')
    | (.error (), s') => (.error ⟨503, "ADAPTER_NONCE_STORE_UNAVAILABLE"⟩, s')

end Adapter

end ForgetOps.AdapterSdk
