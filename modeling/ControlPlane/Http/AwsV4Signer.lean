import ControlPlane.Curl.Wrapper
import ControlPlane.Lib.KeyedOrder

/-!
# The canonical request of `AwsV4Signer`

`AwsV4Signer` (src/cc/core/http2_client/src/aws) signs an `HttpRequest`
with AWS Signature Version 4. `GetSignatureParts` adds the `X-Amz-Date` and
`Host` headers when they are missing, sorts the names of the headers to sign
by their lower case, builds the canonical request in
`CreateCanonicalRequest`, and signs its hash with the key derived from the
secret, the date, the region and the service.

AWS builds the canonical request from the method, the path, the query with
its parameters sorted by name and then by value, the signed headers by lower
case name with their values joined by commas, the list of those names, and
the hash of the body (`awsCanonicalRequest`). The signer builds the same
text, and so the same signature, as long as sorting the query's
`name=value` strings whole puts them in the order of their names and values
(`getSignatureParts_eq_aws`); that holds when no parameter name is a proper
prefix of another (`ControlPlane.KeyedOrder.record_lt_iff`).

## Implementation notes

Texts are `List Char`, compared by the lexicographic `<` that
`std::string` compares by. `std::sort` is `List.mergeSort` under the same
`<`; it differs from `std::sort` only in how it orders names equal but for
case, which the results here exclude. `HttpHeaders`, a `std::multimap`, is
the list of its entries, equal names in the order they were inserted, so
that `find` is the first entry of `equal_range`. SHA-256 and HMAC are
parameters (`sha256Digest`, `hmac`) over bytes; a `char` is a byte by
`Char.toUInt8` and a byte a `char` by `Char.ofUInt8`. The clock's answer to
`GetSigningTime` is the parameter `signingTime`. Values of signed headers are
taken as they are: AWS trims them and collapses repeated spaces, which
changes no value without such spaces.
-/

namespace ControlPlane.Http

open Core KeyedOrder
open Curl (HttpMethod BytesBuffer)

def scHttp2Client : Nat := 0x0012

def scHttp2ClientAuthNoHeaderSpecified : StatusCode := makeErrorCode scHttp2Client 0x0005

def scHttp2ClientAuthMissingHeader : StatusCode := makeErrorCode scHttp2Client 0x0006

def scHttp2ClientAuthBadRequest : StatusCode := makeErrorCode scHttp2Client 0x0007

def scHttp2ClientAuthAlreadySigned : StatusCode := makeErrorCode scHttp2Client 0x0008

def kEmptyStringSha256 : List Char :=
  "e3b0c44298fc1c149afbf4c8996fb92427ae41e4649b934ca495991b7852b855".toList

def kAmzDateHeader : List Char := "X-Amz-Date".toList

def kHostHeader : List Char := "Host".toList

def kAuthorizationHeader : List Char := "Authorization".toList

def kSigV4Algorithm : List Char := "AWS4-HMAC-SHA256".toList

def hexLookup : List Char := "0123456789abcdef".toList

/-- `HexEncode`: two lower case hex digits a byte, high half first. -/
def hexEncode (data : List UInt8) : List Char :=
  data.flatMap fun (b : UInt8) =>
    [hexLookup.getD (b >>> 4).toNat '0', hexLookup.getD (b &&& 0x0f).toNat '0']

section Crypto

variable (sha256Digest : List UInt8 → List UInt8) (hmac : List UInt8 → List UInt8 → List UInt8)

/-- `Sha256`: the hex digest of a string's bytes. -/
def sha256 (data : List Char) : List Char :=
  hexEncode (sha256Digest (data.map Char.toUInt8))

/-- `HmacSha256`: HMAC of a string's bytes under a key. -/
def hmacSha256 (key : List UInt8) (data : List Char) : List UInt8 :=
  hmac key (data.map Char.toUInt8)

end Crypto

/-- The fields of `AwsV4Signer` that `GetSignatureParts` reads. -/
structure AwsV4Signer where
  awsSecretKey : List Char
  serviceName : List Char
  awsRegion : List Char

/-- `HttpHeaders`: the entries of the multimap, name and value. -/
abbrev HttpHeaders := List (List Char × List Char)

/-- The fields of `HttpRequest` the signer reads and writes; a null pointer
is `none`. -/
structure HttpRequest where
  method : HttpMethod
  path : Option (List Char)
  query : Option (List Char)
  headers : Option HttpHeaders
  body : BytesBuffer

/-- `equal_range(name)`: the values of the entries with that name; `find`
is its first and `count` its length. -/
def equalRange (headers : HttpHeaders) (name : List Char) : List (List Char) :=
  (headers.filter fun entry => entry.1 = name).map Prod.snd

def toLowerCopy (text : List Char) : List Char := text.map Char.toLower

/-- `find_nth(text, "/", n)`: where the `n + 1`-th `'/'` stands. -/
def findNth (text : List Char) (n : Nat) : Option Nat :=
  ((text.zipIdx.filter fun entry => entry.1 = '/').map Prod.snd)[n]?

/-! ## `CreateCanonicalRequest` -/

/-- The path written into the canonical request: the path itself when it
starts with `'/'`, else what follows the host of a full URL. -/
def canonicalPath (path : List Char) : List Char :=
  if 0 < path.length ∧ path.head? = some '/' then path
  else
    match findNth path 2 with
    | none => ['/']
    | some i => path.drop i

/-- The query as `CreateCanonicalRequest` writes it: split at every `'&'`,
the parts sorted as strings, joined again. -/
def sortedQuery (query : List Char) : List Char :=
  ['&'].intercalate ((query.splitOn '&').mergeSort fun a b => !decide (b < a))

/-- The loop over the headers to sign: the canonical header lines and the
signed header list with a `';'` after each name, or `none` for a name with no
entry. -/
def canonicalHeaderLines (headers : HttpHeaders) :
    List (List Char) → Option (List Char × List Char)
  | [] => some ([], [])
  | header :: rest =>
    let values := equalRange headers header
    if values = [] then none
    else
      let headerLower := toLowerCopy header
      (canonicalHeaderLines headers rest).map fun (lines, signed) =>
        (headerLower ++ [':'] ++ [','].intercalate values ++ ['\n'] ++ lines,
          headerLower ++ [';'] ++ signed)

/-- The signed header list after `seekp(-1)` and `'\n'`: the last `';'`
becomes the line end; an empty stream fails the seek and stays empty. -/
def closeSignedHeaders (signed : List Char) : List Char :=
  if signed = [] then [] else signed.dropLast ++ ['\n']

section Crypto

variable (sha256Digest : List UInt8 → List UInt8) (hmac : List UInt8 → List UInt8 → List UInt8)

/-- The method line: `"GET\n"` for `GET`, `"POST\n"` for `POST`, nothing
for `PUT`. -/
def methodLine (method : HttpMethod) : List Char :=
  (if method = .GET then "GET\n".toList else []) ++ (if method = .POST then "POST\n".toList else [])

/-- The query line: the sorted query, or nothing for a request with none or
an empty one. -/
def canonicalQuery : Option (List Char) → List Char
  | some query => if 0 < query.length then sortedQuery query else []
  | none => []

/-- The hash of the body, which goes to `Sha256` as the string of its bytes;
an empty body has the constant hash of the empty string. -/
def payloadHash (body : BytesBuffer) : List Char :=
  if 0 < body.length then sha256 sha256Digest (body.bytes.map Char.ofUInt8) else kEmptyStringSha256

def createCanonicalRequest (httpRequest : HttpRequest) (headersToSign : List (List Char)) :
    Except ExecutionResult (List Char) :=
  if httpRequest.method = .UNKNOWN then .error (failureExecutionResult scHttp2ClientAuthBadRequest)
  else
    match httpRequest.path, httpRequest.headers with
    | some path, some headers =>
      match canonicalHeaderLines headers headersToSign with
      | none => .error (failureExecutionResult scHttp2ClientAuthMissingHeader)
      | some (lines, signed) =>
        .ok (methodLine httpRequest.method ++ canonicalPath path ++ ['\n'] ++
          canonicalQuery httpRequest.query ++ ['\n'] ++ lines ++ ['\n'] ++ closeSignedHeaders signed ++
          payloadHash sha256Digest httpRequest.body)
    | _, _ => .error (failureExecutionResult scHttp2ClientAuthBadRequest)

/-! ## `GetSignatureParts` -/

/-- The sort of `GetSignatureParts`: by lower case name. -/
def sortHeadersToSign (headersToSign : List (List Char)) : List (List Char) :=
  headersToSign.mergeSort fun a b => !decide (toLowerCopy b < toLowerCopy a)

/-- `DateFromTimestamp`: the `YYYYMMdd` in front of the timestamp. -/
def dateFromTimestamp (xAmzDate : List Char) : List Char := xAmzDate.take 8

/-- The host `GetSignatureParts` reads off a full URL: what follows
`http://` or `https://`, up to the next `'/'`. -/
def hostHeaderValue (path : List Char) : Except ExecutionResult (List Char) :=
  if !"http".toList.isPrefixOf path then .error (failureExecutionResult scHttp2ClientAuthBadRequest)
  else
    let startIdx : Option Nat :=
      if "http://".toList.isPrefixOf path then some 7
      else if "https://".toList.isPrefixOf path then some 8 else none
    match startIdx with
    | none => .error (failureExecutionResult scHttp2ClientAuthBadRequest)
    | some startIdx =>
      match findNth path 2 with
      | none => .ok (path.drop startIdx)
      | some endIdx => .ok ((path.drop startIdx).take (endIdx - startIdx))

/-- The headers `GetSignatureParts` signs, `X-Amz-Date` and `Host` added
where they are missing, and the timestamp it signs with. A missing host
that the path does not give fails the call, the date already added. -/
def addSigningHeaders (signingTime : List Char) (path : Option (List Char)) (headers : HttpHeaders) :
    HttpHeaders × Except ExecutionResult (List Char) :=
  let (headers, timestampValue) :=
    match (equalRange headers kAmzDateHeader).head? with
    | none => (headers ++ [(kAmzDateHeader, signingTime)], signingTime)
    | some value => (headers, value)
  if equalRange headers kHostHeader = [] then
    match path with
    -- the source dereferences the path here; a request with none fails
    -- as `CreateCanonicalRequest` would fail it
    | none => (headers, .error (failureExecutionResult scHttp2ClientAuthBadRequest))
    | some path =>
      match hostHeaderValue path with
      | .error e => (headers, .error e)
      | .ok hostValue => (headers ++ [(kHostHeader, hostValue)], .ok timestampValue)
  else (headers, .ok timestampValue)

/-- The string to sign: algorithm, timestamp, scope and the hash of the
canonical request, a line each. -/
def stringToSign (signer : AwsV4Signer) (timestampValue canonicalRequest : List Char) : List Char :=
  kSigV4Algorithm ++ ['\n'] ++ timestampValue ++ ['\n'] ++ dateFromTimestamp timestampValue ++ ['/'] ++
    signer.awsRegion ++ ['/'] ++ signer.serviceName ++ "/aws4_request\n".toList ++
    sha256 sha256Digest canonicalRequest

def calculateSignature (signer : AwsV4Signer) (stringToSign date : List Char) : List Char :=
  let secret := ("AWS4".toList ++ signer.awsSecretKey).map Char.toUInt8
  let hmacDate := hmacSha256 hmac secret date
  let hmacRegion := hmacSha256 hmac hmacDate signer.awsRegion
  let hmacService := hmacSha256 hmac hmacRegion signer.serviceName
  let hmacSigning := hmacSha256 hmac hmacService "aws4_request".toList
  hexEncode (hmacSha256 hmac hmacSigning stringToSign)

/-- What `GetSignatureParts` leaves behind: the request and the header list
it was handed, as it changed them, and its result, the signature with the
`X-Amz-Date` value. -/
structure SignatureParts where
  httpRequest : HttpRequest
  headersToSign : List (List Char)
  result : Except ExecutionResult (List Char × List Char)

def getSignatureParts (signer : AwsV4Signer) (signingTime : List Char) (httpRequest : HttpRequest)
    (headersToSign : List (List Char)) : SignatureParts :=
  if headersToSign = [] then
    ⟨httpRequest, headersToSign, .error (failureExecutionResult scHttp2ClientAuthNoHeaderSpecified)⟩
  else
    match httpRequest.headers with
    | none => ⟨httpRequest, headersToSign, .error (failureExecutionResult scHttp2ClientAuthBadRequest)⟩
    | some headers =>
      if (equalRange headers kAuthorizationHeader).length ≠ 0 then
        ⟨httpRequest, headersToSign, .error (failureExecutionResult scHttp2ClientAuthAlreadySigned)⟩
      else
        let (headers, timestamp) := addSigningHeaders signingTime httpRequest.path headers
        let httpRequest := { httpRequest with headers := some headers }
        match timestamp with
        | .error e => ⟨httpRequest, headersToSign, .error e⟩
        | .ok timestampValue =>
          let headersToSign := sortHeadersToSign headersToSign
          match createCanonicalRequest sha256Digest httpRequest headersToSign with
          | .error e => ⟨httpRequest, headersToSign, .error e⟩
          | .ok canonicalRequest =>
            let signature := calculateSignature hmac signer
              (stringToSign sha256Digest signer timestampValue canonicalRequest)
              (dateFromTimestamp timestampValue)
            ⟨httpRequest, headersToSign, .ok (signature, timestampValue)⟩

end Crypto

/-! ## AWS Signature Version 4 -/

/-- A query parameter `name=value` as AWS reads it: cut at the first `'='`. -/
def splitParameter (parameter : List Char) : List Char × List Char :=
  (parameter.takeWhile (· ≠ '='), (parameter.dropWhile (· ≠ '=')).drop 1)

def joinParameter (parameter : List Char × List Char) : List Char :=
  parameter.1 ++ '=' :: parameter.2

/-- AWS's order of query parameters: by name, then by value. -/
def parameterLe (p q : List Char × List Char) : Bool :=
  decide (p.1 < q.1 ∨ (p.1 = q.1 ∧ ¬ q.2 < p.2))

def awsCanonicalQuery (query : List Char) : List Char :=
  ['&'].intercalate ((((query.splitOn '&').map splitParameter).mergeSort parameterLe).map joinParameter)

def awsMethod : HttpMethod → List Char
  | .GET => "GET".toList
  | .POST => "POST".toList
  | .PUT => "PUT".toList
  | .UNKNOWN => []

/-- The bytes a request carries: `SendHttpRequest` sends the whole buffer
when its length is positive and nothing otherwise. -/
def sentBody (body : BytesBuffer) : List UInt8 :=
  if 0 < body.length then body.bytes else []

section Aws

variable (sha256Digest : List UInt8 → List UInt8) (hmac : List UInt8 → List UInt8 → List UInt8)

/-- The canonical request of AWS Signature Version 4 for a request with
these parts, signing the headers `names`: the values of a header are those
of every entry whose name is the same ignoring case. -/
def awsCanonicalRequest (method : HttpMethod) (path query : List Char) (headers : HttpHeaders)
    (payload : List UInt8) (names : List (List Char)) : List Char :=
  let signed := (names.map toLowerCopy).mergeSort fun a b => !decide (b < a)
  let canonicalHeaders := signed.flatMap fun name =>
    name ++ [':'] ++
      [','].intercalate ((headers.filter fun entry => toLowerCopy entry.1 = name).map Prod.snd) ++
      ['\n']
  awsMethod method ++ ['\n'] ++ canonicalPath path ++ ['\n'] ++
    (if 0 < query.length then awsCanonicalQuery query else []) ++ ['\n'] ++
    canonicalHeaders ++ ['\n'] ++ [';'].intercalate signed ++ ['\n'] ++ hexEncode (sha256Digest payload)

/-- The signing key: HMAC of the date under `"AWS4"` and the secret, then of
the region, the service and `"aws4_request"`. -/
def awsSigningKey (secret date region service : List Char) : List UInt8 :=
  let kDate := hmac (("AWS4".toList ++ secret).map Char.toUInt8) (date.map Char.toUInt8)
  let kRegion := hmac kDate (region.map Char.toUInt8)
  let kService := hmac kRegion (service.map Char.toUInt8)
  hmac kService ("aws4_request".toList.map Char.toUInt8)

/-- The signature AWS computes for a canonical request signed at `timestamp`. -/
def awsSignature (signer : AwsV4Signer) (timestamp canonicalRequest : List Char) : List Char :=
  let date := timestamp.take 8
  let scope := date ++ ['/'] ++ signer.awsRegion ++ ['/'] ++ signer.serviceName ++ "/aws4_request".toList
  let toSign := "AWS4-HMAC-SHA256".toList ++ ['\n'] ++ timestamp ++ ['\n'] ++ scope ++ ['\n'] ++
    hexEncode (sha256Digest (canonicalRequest.map Char.toUInt8))
  hexEncode (hmac (awsSigningKey hmac signer.awsSecretKey date signer.awsRegion signer.serviceName)
    (toSign.map Char.toUInt8))

end Aws

/-! ## The query -/

/-- A parameter with an `'='` is a name without one, `'='`, and a value. -/
theorem exists_parameter_split {parameter : List Char} (h : '=' ∈ parameter) :
    ∃ name value, '=' ∉ name ∧ parameter = name ++ '=' :: value := by
  induction parameter with
  | nil => simp at h
  | cons c rest ih =>
    by_cases hc : c = '='
    · exact ⟨[], rest, List.not_mem_nil, by simp [hc]⟩
    · have hrest : '=' ∈ rest := by
        rcases List.mem_cons.mp h with h | h
        · exact absurd h.symm hc
        · exact h
      obtain ⟨name, value, hname, rfl⟩ := ih hrest
      refine ⟨c :: name, value, ?_, rfl⟩
      simp only [List.mem_cons, not_or]
      exact ⟨fun h => hc h.symm, hname⟩

theorem splitParameter_append {name value : List Char} (hname : '=' ∉ name) :
    splitParameter (name ++ '=' :: value) = (name, value) := by
  have hbefore : ∀ c ∈ name, decide (c ≠ '=') = true := by
    intro c hc
    simp only [ne_eq, decide_eq_true_eq]
    rintro rfl
    exact hname hc
  rw [splitParameter, List.takeWhile_append_of_pos hbefore, List.dropWhile_append_of_pos hbefore]
  simp

theorem joinParameter_splitParameter {parameter : List Char} (h : '=' ∈ parameter) :
    joinParameter (splitParameter parameter) = parameter := by
  obtain ⟨name, value, hname, rfl⟩ := exists_parameter_split h
  rw [splitParameter_append hname]
  rfl

/-- Two parameters whose names are apart compare as whole strings as AWS
orders them. -/
theorem parameter_order {a b : List Char} (ha : '=' ∈ a) (hb : '=' ∈ b)
    (hnames : NoProperPrefix (splitParameter a).1 (splitParameter b).1) :
    (!decide (b < a)) = parameterLe (splitParameter a) (splitParameter b) := by
  obtain ⟨k₁, v₁, hk₁, rfl⟩ := exists_parameter_split ha
  obtain ⟨k₂, v₂, hk₂, rfl⟩ := exists_parameter_split hb
  rw [splitParameter_append hk₁, splitParameter_append hk₂] at hnames ⊢
  simp only [parameterLe, record_lt_iff '=' v₂ v₁ hnames.symm, ← not_pair_lt_iff, decide_not]

/-- A query whose parameters all have a name, no name a proper prefix of
another. -/
def KeyedQuery (query : List Char) : Prop :=
  query ≠ [] →
    (∀ p ∈ query.splitOn '&', '=' ∈ p) ∧
      ∀ p ∈ query.splitOn '&', ∀ p' ∈ query.splitOn '&',
        NoProperPrefix (splitParameter p).1 (splitParameter p').1

theorem sortedQuery_eq_awsCanonicalQuery {query : List Char}
    (hparameters : ∀ p ∈ query.splitOn '&', '=' ∈ p)
    (hnames : ∀ p ∈ query.splitOn '&', ∀ p' ∈ query.splitOn '&',
      NoProperPrefix (splitParameter p).1 (splitParameter p').1) :
    sortedQuery query = awsCanonicalQuery query := by
  have horder := fun a ha b hb => parameter_order (hparameters a ha) (hparameters b hb) (hnames a ha b hb)
  rw [sortedQuery, awsCanonicalQuery, ← List.map_mergeSort horder, List.map_map]
  congr 1
  -- joining a split parameter gives it back, and the sort only permutes
  conv_lhs => rw [← List.map_id (List.mergeSort _ _)]
  refine List.map_congr_left fun p hp => (joinParameter_splitParameter ?_).symm
  exact hparameters p ((List.mergeSort_perm _ _).mem_iff.mp hp)

theorem canonicalQuery_eq_aws {query : Option (List Char)} (h : KeyedQuery (query.getD [])) :
    canonicalQuery query = if 0 < (query.getD []).length then awsCanonicalQuery (query.getD []) else [] := by
  cases query with
  | none => rfl
  | some query =>
    rw [Option.getD_some] at h ⊢
    by_cases hlength : 0 < query.length
    · have hne : query ≠ [] := List.ne_nil_of_length_pos hlength
      obtain ⟨hparameters, hnames⟩ := h hne
      simp [canonicalQuery, hlength, sortedQuery_eq_awsCanonicalQuery hparameters hnames]
    · simp [canonicalQuery, hlength]

/-! ## The signed headers -/

/-- Header names as the signer is asked to sign them: each has an entry,
and every entry whose name is the same ignoring case is spelled as it is. -/
def SpelledAsSigned (headers : HttpHeaders) (names : List (List Char)) : Prop :=
  ∀ name ∈ names, equalRange headers name ≠ [] ∧
    ∀ entry ∈ headers, toLowerCopy entry.1 = toLowerCopy name → entry.1 = name

/-- Where no other spelling of a name has an entry, `equal_range` finds the
entries AWS reads for it. -/
theorem equalRange_eq_lower {headers : HttpHeaders} {name : List Char}
    (h : ∀ entry ∈ headers, toLowerCopy entry.1 = toLowerCopy name → entry.1 = name) :
    equalRange headers name =
      (headers.filter fun entry => toLowerCopy entry.1 = toLowerCopy name).map Prod.snd := by
  rw [equalRange, List.filter_congr]
  intro entry hentry
  have hsame : entry.1 = name ↔ toLowerCopy entry.1 = toLowerCopy name :=
    ⟨fun he => he ▸ rfl, h entry hentry⟩
  simp only [hsame]

theorem canonicalHeaderLines_of_values {headers : HttpHeaders} {names : List (List Char)}
    (h : ∀ name ∈ names, equalRange headers name ≠ []) :
    canonicalHeaderLines headers names =
      some (names.flatMap (fun name =>
          toLowerCopy name ++ [':'] ++ [','].intercalate (equalRange headers name) ++ ['\n']),
        names.flatMap fun name => toLowerCopy name ++ [';']) := by
  induction names with
  | nil => rfl
  | cons name rest ih =>
    have hrest := ih fun n hn => h n (List.mem_cons_of_mem name hn)
    rw [canonicalHeaderLines, if_neg (h name List.mem_cons_self), hrest]
    simp

/-- Names each followed by `';'`, the last `';'` made the line end, are the
names joined by `';'` on one line. -/
theorem closeSignedHeaders_flatMap {names : List (List Char)} (h : names ≠ []) :
    closeSignedHeaders (names.flatMap fun name => name ++ [';']) = [';'].intercalate names ++ ['\n'] := by
  have hjoin : ∀ names : List (List Char), names ≠ [] →
      names.flatMap (fun name => name ++ [';']) = [';'].intercalate names ++ [';'] := by
    intro names hne
    induction names with
    | nil => exact absurd rfl hne
    | cons name rest ih =>
      cases rest with
      | nil => simp
      | cons next rest =>
        rw [List.flatMap_cons, ih (List.cons_ne_nil _ _), List.intercalate_cons_cons]
        simp
  rw [closeSignedHeaders, hjoin names h, if_neg (by simp), List.dropLast_concat]

theorem sortHeadersToSign_map_toLowerCopy (names : List (List Char)) :
    (sortHeadersToSign names).map toLowerCopy =
      (names.map toLowerCopy).mergeSort fun a b => !decide (b < a) :=
  List.map_mergeSort fun _ _ _ _ => rfl

theorem mem_sortHeadersToSign {names : List (List Char)} {name : List Char} :
    name ∈ sortHeadersToSign names ↔ name ∈ names :=
  (List.mergeSort_perm _ _).mem_iff

/-! ## The method and the body -/

theorem methodLine_eq_aws {method : HttpMethod} (h : method = .GET ∨ method = .POST) :
    methodLine method = awsMethod method ++ ['\n'] := by
  rcases h with rfl | rfl <;> rfl

/-- A byte read as a `char` and written back is the byte. -/
theorem toUInt8_ofUInt8 (b : UInt8) : (Char.ofUInt8 b).toUInt8 = b :=
  -- the character holds the byte widened to 32 bits
  UInt8.toUInt8_toUInt32 b

theorem payloadHash_eq_aws (sha256Digest : List UInt8 → List UInt8) (body : BytesBuffer)
    (hempty : hexEncode (sha256Digest []) = kEmptyStringSha256) :
    payloadHash sha256Digest body = hexEncode (sha256Digest (sentBody body)) := by
  by_cases hlength : 0 < body.length
  · have hbytes : (body.bytes.map Char.ofUInt8).map Char.toUInt8 = body.bytes := by
      rw [List.map_map]
      exact List.map_congr_left (fun b _ => toUInt8_ofUInt8 b) |>.trans (List.map_id _)
    simp only [payloadHash, sentBody, if_pos hlength, sha256, hbytes]
  · simp only [payloadHash, sentBody, if_neg hlength, hempty]

/-- The lines of the signed headers, in the signer's order with the values
`equal_range` finds, are AWS's. -/
theorem headerLines_eq_aws {headers : HttpHeaders} {names : List (List Char)}
    (h : SpelledAsSigned headers names) :
    (sortHeadersToSign names).flatMap (fun name =>
        toLowerCopy name ++ [':'] ++ [','].intercalate (equalRange headers name) ++ ['\n']) =
      ((names.map toLowerCopy).mergeSort fun a b => !decide (b < a)).flatMap fun name =>
        name ++ [':'] ++
          [','].intercalate ((headers.filter fun entry => toLowerCopy entry.1 = name).map Prod.snd) ++
          ['\n'] := by
  rw [← sortHeadersToSign_map_toLowerCopy, List.flatMap_map]
  unfold List.flatMap
  refine congrArg List.flatten (List.map_congr_left fun name hname => ?_)
  rw [equalRange_eq_lower (h name (mem_sortHeadersToSign.mp hname)).2]

theorem signedHeaders_eq_aws {names : List (List Char)} (h : names ≠ []) :
    closeSignedHeaders ((sortHeadersToSign names).flatMap fun name => toLowerCopy name ++ [';']) =
      [';'].intercalate ((names.map toLowerCopy).mergeSort fun a b => !decide (b < a)) ++ ['\n'] := by
  have hsorted : (sortHeadersToSign names).map toLowerCopy ≠ [] := by
    rw [Ne, List.map_eq_nil_iff]
    intro hnil
    have hlength : (sortHeadersToSign names).length = names.length :=
      (List.mergeSort_perm names _).length_eq
    rw [hnil] at hlength
    exact h (List.eq_nil_of_length_eq_zero hlength.symm)
  rw [← sortHeadersToSign_map_toLowerCopy, ← closeSignedHeaders_flatMap hsorted, List.flatMap_map]

/-! ## The canonical request -/

/-- The text `CreateCanonicalRequest` builds once the loop over the headers
has found every name. -/
theorem createCanonicalRequest_of_lines (sha256Digest : List UInt8 → List UInt8)
    {httpRequest : HttpRequest} {path : List Char} {headers : HttpHeaders}
    {names : List (List Char)} {lines signed : List Char}
    (hunknown : httpRequest.method ≠ .UNKNOWN) (hpath : httpRequest.path = some path)
    (hheaders : httpRequest.headers = some headers)
    (hlines : canonicalHeaderLines headers names = some (lines, signed)) :
    createCanonicalRequest sha256Digest httpRequest names =
      .ok (methodLine httpRequest.method ++ canonicalPath path ++ ['\n'] ++
        canonicalQuery httpRequest.query ++ ['\n'] ++ lines ++ ['\n'] ++ closeSignedHeaders signed ++
        payloadHash sha256Digest httpRequest.body) := by
  rw [createCanonicalRequest, if_neg hunknown, hpath, hheaders]
  dsimp only
  rw [hlines]

/-- For a `GET` or `POST` request with a path and headers, a query of named
parameters none of whose names is a proper prefix of another, and names of
headers spelled as in the request, `CreateCanonicalRequest` builds AWS's
canonical request from the names as `GetSignatureParts` sorts them. -/
theorem createCanonicalRequest_eq_aws (sha256Digest : List UInt8 → List UInt8)
    {httpRequest : HttpRequest} {path : List Char} {headers : HttpHeaders} {names : List (List Char)}
    (hmethod : httpRequest.method = .GET ∨ httpRequest.method = .POST)
    (hpath : httpRequest.path = some path) (hheaders : httpRequest.headers = some headers)
    (hquery : KeyedQuery (httpRequest.query.getD [])) (hnames : names ≠ [])
    (hsigned : SpelledAsSigned headers names)
    (hempty : hexEncode (sha256Digest []) = kEmptyStringSha256) :
    createCanonicalRequest sha256Digest httpRequest (sortHeadersToSign names) =
      .ok (awsCanonicalRequest sha256Digest httpRequest.method path (httpRequest.query.getD []) headers
        (sentBody httpRequest.body) names) := by
  have hunknown : httpRequest.method ≠ .UNKNOWN := by
    rcases hmethod with h | h <;> rw [h] <;> decide
  have hvalues : ∀ name ∈ sortHeadersToSign names, equalRange headers name ≠ [] :=
    fun name hname => (hsigned name (mem_sortHeadersToSign.mp hname)).1
  rw [createCanonicalRequest_of_lines sha256Digest hunknown hpath hheaders
    (canonicalHeaderLines_of_values hvalues)]
  rw [methodLine_eq_aws hmethod, canonicalQuery_eq_aws hquery, payloadHash_eq_aws _ _ hempty,
    headerLines_eq_aws hsigned, signedHeaders_eq_aws hnames]
  simp only [awsCanonicalRequest, List.append_assoc]

/-! ## The signature -/

section Signature

variable (sha256Digest : List UInt8 → List UInt8) (hmac : List UInt8 → List UInt8 → List UInt8)

/-- The string to sign and the key of the signer are AWS's. -/
theorem calculateSignature_stringToSign (signer : AwsV4Signer) (timestamp canonicalRequest : List Char) :
    calculateSignature hmac signer (stringToSign sha256Digest signer timestamp canonicalRequest)
        (dateFromTimestamp timestamp) =
      awsSignature sha256Digest hmac signer timestamp canonicalRequest := by
  have hscope : "/aws4_request\n".toList = "/aws4_request".toList ++ ['\n'] := by decide +kernel
  unfold calculateSignature stringToSign awsSignature awsSigningKey hmacSha256 sha256 dateFromTimestamp
    kSigV4Algorithm
  rw [hscope]
  dsimp only
  simp only [List.append_assoc]

/-- Once the headers are added and the canonical request built, the
signature `GetSignatureParts` returns is AWS's signature of that canonical
request. -/
theorem getSignatureParts_of_canonical (signer : AwsV4Signer) (signingTime : List Char)
    {httpRequest : HttpRequest} {names : List (List Char)} {headers signed : HttpHeaders}
    {timestamp canonicalRequest : List Char} (hnames : names ≠ [])
    (hheaders : httpRequest.headers = some headers)
    (hunsigned : equalRange headers kAuthorizationHeader = [])
    (hadded : addSigningHeaders signingTime httpRequest.path headers = (signed, .ok timestamp))
    (hcanonical : createCanonicalRequest sha256Digest { httpRequest with headers := some signed }
      (sortHeadersToSign names) = .ok canonicalRequest) :
    getSignatureParts sha256Digest hmac signer signingTime httpRequest names =
      ⟨{ httpRequest with headers := some signed }, sortHeadersToSign names,
        .ok (awsSignature sha256Digest hmac signer timestamp canonicalRequest, timestamp)⟩ := by
  rw [getSignatureParts, if_neg hnames, hheaders]
  dsimp only
  rw [hunsigned, List.length_nil, if_neg (fun h => h rfl), hadded]
  dsimp only
  rw [hcanonical]
  dsimp only
  rw [calculateSignature_stringToSign]

/-- A request that has its `X-Amz-Date` and `Host` gets nothing added, and
is signed at its own timestamp. -/
theorem addSigningHeaders_of_present (signingTime : List Char) (path : Option (List Char))
    {headers : HttpHeaders} {timestamp : List Char} {later : List (List Char)}
    (hdate : equalRange headers kAmzDateHeader = timestamp :: later)
    (hhost : equalRange headers kHostHeader ≠ []) :
    addSigningHeaders signingTime path headers = (headers, .ok timestamp) := by
  rw [addSigningHeaders, hdate, List.head?_cons]
  dsimp only
  rw [if_neg hhost]

/-- For a `GET` or `POST` request with a path, a query of named parameters
none of whose names is a proper prefix of another, and headers to sign
spelled as in the request with the headers it adds, `GetSignatureParts`
returns AWS's signature of AWS's canonical request. -/
theorem getSignatureParts_eq_aws (signer : AwsV4Signer) (signingTime : List Char)
    {httpRequest : HttpRequest} {path : List Char} {names : List (List Char)}
    {headers signed : HttpHeaders} {timestamp : List Char}
    (hmethod : httpRequest.method = .GET ∨ httpRequest.method = .POST)
    (hpath : httpRequest.path = some path) (hheaders : httpRequest.headers = some headers)
    (hunsigned : equalRange headers kAuthorizationHeader = [])
    (hadded : addSigningHeaders signingTime httpRequest.path headers = (signed, .ok timestamp))
    (hquery : KeyedQuery (httpRequest.query.getD [])) (hnames : names ≠ [])
    (hsigned : SpelledAsSigned signed names)
    (hempty : hexEncode (sha256Digest []) = kEmptyStringSha256) :
    getSignatureParts sha256Digest hmac signer signingTime httpRequest names =
      ⟨{ httpRequest with headers := some signed }, sortHeadersToSign names,
        .ok (awsSignature sha256Digest hmac signer timestamp
          (awsCanonicalRequest sha256Digest httpRequest.method path (httpRequest.query.getD []) signed
            (sentBody httpRequest.body) names), timestamp)⟩ :=
  getSignatureParts_of_canonical sha256Digest hmac signer signingTime hnames hheaders hunsigned hadded
    (createCanonicalRequest_eq_aws sha256Digest hmethod hpath rfl hquery hnames hsigned hempty)

end Signature

/-- AWS's canonical request is its text up to the payload hash, then the hash. -/
theorem awsCanonicalRequest_eq_append (sha256Digest : List UInt8 → List UInt8) (method : HttpMethod)
    (path query : List Char) (headers : HttpHeaders) (payload : List UInt8) (names : List (List Char)) :
    awsCanonicalRequest sha256Digest method path query headers payload names =
      awsCanonicalRequest (fun _ => []) method path query headers payload names ++
        hexEncode (sha256Digest payload) := by
  have hnil : hexEncode [] = [] := rfl
  simp only [awsCanonicalRequest, hnil, List.append_nil, List.append_assoc]

/-- At the query `a-b=1&a=2` the whole strings sort `a-b=1` first, `'-'` being
below `'='`, while AWS puts the parameter named `a` first: `GetSignatureParts`
signs a canonical request that is not AWS's. -/
theorem getSignatureParts_sorts_query_whole :
    let headers : HttpHeaders :=
      [(kHostHeader, "example.com".toList), (kAmzDateHeader, "20240101T000000Z".toList)]
    let httpRequest : HttpRequest := ⟨.GET, some ['/'], some "a-b=1&a=2".toList, some headers, {}⟩
    (∀ p ∈ "a-b=1&a=2".toList.splitOn '&', '=' ∈ p ∧ ∀ c ∈ p, c.isAlphanum ∨ c ∈ "-_.~=".toList) ∧
      (∀ entry ∈ headers, ' ' ∉ entry.2) ∧ SpelledAsSigned headers [kHostHeader] ∧
      ∀ sha256Digest hmac signer signingTime, ∃ canonicalRequest,
        getSignatureParts sha256Digest hmac signer signingTime httpRequest [kHostHeader] =
          ⟨httpRequest, [kHostHeader],
            .ok (awsSignature sha256Digest hmac signer "20240101T000000Z".toList canonicalRequest,
              "20240101T000000Z".toList)⟩ ∧
        canonicalRequest ≠
          awsCanonicalRequest sha256Digest .GET ['/'] "a-b=1&a=2".toList headers [] [kHostHeader] := by
  intro headers httpRequest
  have hsplit : "a-b=1&a=2".toList.splitOn '&' = ["a-b=1".toList, "a=2".toList] := by decide +kernel
  have hquery : ∀ p ∈ "a-b=1&a=2".toList.splitOn '&',
      '=' ∈ p ∧ ∀ c ∈ p, c.isAlphanum ∨ c ∈ "-_.~=".toList := by
    -- decided as `List.all`: a bounded `∀` over `Char` may be decided over every character
    have hall := List.all_eq_true.mp (show (["a-b=1".toList, "a=2".toList].all fun p =>
        p.contains '=' && p.all fun c => c.isAlphanum || "-_.~=".toList.contains c) = true by
      decide +kernel)
    rw [hsplit]
    intro p hp
    simpa [List.all_eq_true] using hall p hp
  refine ⟨hquery, by decide +kernel, by unfold SpelledAsSigned; decide +kernel, ?_⟩
  intro sha256Digest hmac signer signingTime
  -- the whole strings are in order as they stand; AWS swaps the parameters
  have hcode : canonicalQuery (some "a-b=1&a=2".toList) = "a-b=1&a=2".toList := by
    rw [canonicalQuery, if_pos (by decide), sortedQuery, hsplit, mergeSort_pair]
    decide +kernel
  have haws : awsCanonicalQuery "a-b=1&a=2".toList = "a=2&a-b=1".toList := by
    rw [awsCanonicalQuery, hsplit, List.map_cons, List.map_cons, List.map_nil, mergeSort_pair]
    decide +kernel
  have hlines : canonicalHeaderLines headers [kHostHeader] =
      some ("host:example.com\n".toList, "host;".toList) := by
    decide +kernel
  have hcanonical : createCanonicalRequest sha256Digest httpRequest [kHostHeader] =
      .ok ("GET\n/\na-b=1&a=2\nhost:example.com\n\nhost\n".toList ++ kEmptyStringSha256) := by
    rw [createCanonicalRequest_of_lines sha256Digest (by decide) rfl rfl hlines, hcode, payloadHash,
      if_neg (by decide)]
    decide +kernel
  have hadded : addSigningHeaders signingTime httpRequest.path headers =
      (headers, .ok "20240101T000000Z".toList) :=
    addSigningHeaders_of_present signingTime _
      (show equalRange headers kAmzDateHeader = ["20240101T000000Z".toList] by decide +kernel)
      (by decide +kernel)
  refine ⟨"GET\n/\na-b=1&a=2\nhost:example.com\n\nhost\n".toList ++ kEmptyStringSha256, ?_, ?_⟩
  · rw [getSignatureParts_of_canonical sha256Digest hmac signer signingTime (List.cons_ne_nil _ _) rfl
      (by decide +kernel) hadded (by rw [sortHeadersToSign, List.mergeSort_singleton]; exact hcanonical),
      sortHeadersToSign, List.mergeSort_singleton]
  · have hawsText : awsCanonicalRequest (fun _ => []) .GET ['/'] "a-b=1&a=2".toList headers [] [kHostHeader] =
        "GET\n/\na=2&a-b=1\nhost:example.com\n\nhost\n".toList := by
      simp only [awsCanonicalRequest, haws, List.map_cons, List.map_nil, List.mergeSort_singleton]
      decide +kernel
    rw [awsCanonicalRequest_eq_append, hawsText]
    intro heq
    exact absurd (List.append_inj heq (by decide +kernel)).1 (by decide +kernel)

end ControlPlane.Http
