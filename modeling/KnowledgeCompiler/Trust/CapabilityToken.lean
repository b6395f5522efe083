import KnowledgeCompiler.Lib.Base64
import KnowledgeCompiler.Lib.Json.Bytes
import KnowledgeCompiler.Lib.Text
import Mathlib.Algebra.Order.Ring.Rat

namespace KnowledgeCompiler.Trust

open Lib

def TOKEN_TYPE : String := "cap_v1"

def CAPABILITY_SCOPES : List String := ["worlds:read", "search:run", "evidence:read", "export:run"]

def DEFAULT_TTL_SECONDS : Int := 900

def MAX_TTL_SECONDS : Int := 3600

def _MAX_SUB_LENGTH : Nat := 255

def _MAX_AUD_LENGTH : Nat := 255

def _MAX_JTI_LENGTH : Nat := 128

def _FUTURE_IAT_LEEWAY_SECONDS : Int := 60

def _ALGORITHM : String := "HS256"

def _b64_encode (raw : List UInt8) : List Char := Base64.encode raw

-- `text.encode("ascii")`, which raises on any other character.
def ascii (text : List Char) : Option (List UInt8) :=
  if text.all (fun c => c.toNat < 0x80) then some (text.map (fun c => UInt8.ofNat c.toNat))
  else none

-- Every exception of it is a `ValueError`.
def _b64_decode (part : List Char) : Option (List UInt8) :=
  (ascii (Base64.padded part)).bind (fun _ => Base64.decode (Base64.padded part))

inductive Secret
  | bytes (raw : List UInt8)
  | text (value : String)
deriving DecidableEq

def Secret.key : Secret → List UInt8
  | .bytes raw => raw
  | .text value => Json.utf8 value.toList

def _HEADER_PAYLOAD : Json := .obj [("alg", .str _ALGORITHM), ("typ", .str TOKEN_TYPE)]

def _ENCODED_HEADER : List Char := _b64_encode (Json.utf8 (Json.dumpsAscii _HEADER_PAYLOAD))

-- The digits that `int` and `str` go up to.
def MAX_STR_DIGITS : Nat := 4300

-- What can leave the verifier other than claims.
inductive Raised
  | token_error (code : String)
  | unicode_encode_error
  | recursion_error
deriving DecidableEq, Repr

structure Claims where
  sub : String
  scopes : List String
  aud : String
  iat : Int
  exp : Int
  jti : String
deriving DecidableEq, Repr

def strip (text : String) : String := String.ofList (Text.strip text.toList)

-- `int(now)`
def seconds (now : ℚ) : Int := now.num.tdiv now.den

section Token

-- The digest of `hmac.new(key, message, sha256)`, and what `json.loads` raises over a text for
-- another reason than its grammar: brackets nested too deeply, an integer of too many digits.
variable (hmac : List UInt8 → List UInt8 → List UInt8)
variable (refuses : List Char → Option Json.LoadsError)

def _mac (secret : List UInt8) (signing_input : List Char) : Option (List Char) :=
  (ascii signing_input).map (fun message => _b64_encode (hmac secret message))

def payload (claims : Claims) : Json :=
  .obj [("sub", .str claims.sub), ("scopes", .arr (claims.scopes.map .str)),
    ("aud", .str claims.aud), ("iat", .int claims.iat), ("exp", .int claims.exp),
    ("jti", .str claims.jti)]

-- `fresh` is what `secrets.token_urlsafe(24)` gives, `shown` how a list of names is printed.
def mint (shown : List String → String) (fresh : String) (sub : String) (scopes : List String)
    (aud : String) (secret : Secret) (now : ℚ) (ttl_seconds : Int) (jti : Option String) :
    Except String (List Char) :=
  let subject := strip sub
  let audience := strip aud
  let unique_scopes := fromkeys scopes
  let unknown := unique_scopes.filter (· ∉ CAPABILITY_SCOPES)
  let token_id := jti.getD fresh
  let issued_at := seconds now
  if subject = "" ∨ _MAX_SUB_LENGTH < subject.length then
    .error s!"sub must be 1..{_MAX_SUB_LENGTH} characters"
  else if audience = "" ∨ _MAX_AUD_LENGTH < audience.length then
    .error s!"aud must be 1..{_MAX_AUD_LENGTH} characters"
  else if unique_scopes = [] then .error "at least one scope is required"
  else if unknown ≠ [] then
    .error ("unknown capability scopes: " ++ shown (unknown.insertionSort (· ≤ ·)))
  else if ¬(0 < ttl_seconds ∧ ttl_seconds ≤ MAX_TTL_SECONDS) then
    .error s!"ttl_seconds must be within 1..{MAX_TTL_SECONDS}"
  else if token_id = "" ∨ _MAX_JTI_LENGTH < token_id.length then
    .error s!"jti must be 1..{_MAX_JTI_LENGTH} characters"
  else if 10 ^ MAX_STR_DIGITS ≤ issued_at.natAbs ∨
      10 ^ MAX_STR_DIGITS ≤ (issued_at + ttl_seconds).natAbs then
    .error s!"Exceeds the limit ({MAX_STR_DIGITS} digits) for integer string conversion"
  else
    let payload_json := Json.utf8 (Json.dumpsAscii (payload
      { sub := subject, scopes := unique_scopes, aud := audience, iat := issued_at
        exp := issued_at + ttl_seconds, jti := token_id }))
    let signing_input := _ENCODED_HEADER ++ '.' :: _b64_encode payload_json
    match _mac hmac secret.key signing_input with
    | none => .error "UnicodeEncodeError"
    | some signature => .ok (signing_input ++ '.' :: signature)

-- `json.loads(_b64_decode(part))`, a `ValueError` turned into the code.
def read_part (code : String) (part : List Char) : Except Raised Json :=
  match (_b64_decode part).bind Json.decodeBytes with
  | none => .error (.token_error code)
  | some text =>
      match refuses text with
      | some .recursion => .error .recursion_error
      | some .value => .error (.token_error code)
      | none => (Json.loads text).elim (.error (.token_error code)) .ok

def is_cap_v1 : Json → Bool
  | .obj header =>
      match Json.get? header "alg", Json.get? header "typ" with
      | some (.str alg), some (.str typ) => alg = _ALGORITHM && typ = TOKEN_TYPE
      | _, _ => false
  | _ => false

-- A scope that is a string of the vocabulary.
def known_scope : Json → Option String
  | .str scope => if scope ∈ CAPABILITY_SCOPES then some scope else none
  | _ => none

def well_formed : Json → Option Claims
  | .obj raw_claims =>
      match Json.get? raw_claims "sub", Json.get? raw_claims "scopes", Json.get? raw_claims "aud",
        Json.get? raw_claims "iat", Json.get? raw_claims "exp", Json.get? raw_claims "jti" with
      | some (.str subject), some (.arr scopes), some (.str audience), some (.int issued_at),
        some (.int expires_at), some (.str token_id) =>
          if subject = "" ∨ _MAX_SUB_LENGTH < subject.length ∨ audience = "" ∨
              _MAX_AUD_LENGTH < audience.length ∨ token_id = "" ∨
              _MAX_JTI_LENGTH < token_id.length ∨ scopes = [] ∨ expires_at ≤ issued_at then none
          else
            (scopes.mapM known_scope).map (fun scopes =>
              { sub := subject, scopes := fromkeys scopes, aud := audience, iat := issued_at
                exp := expires_at, jti := token_id })
      | _, _, _, _, _, _ => none
  | _ => none

-- The claims are authentic; whether they hold here and now.
def settled (aud : String) (now : ℚ) (revocation_store : Option (String → Bool)) (claims : Claims) :
    Except Raised Claims :=
  if claims.exp ≤ seconds now then .error (.token_error "TOKEN_EXPIRED")
  else if claims.aud ≠ strip aud then .error (.token_error "AUDIENCE_MISMATCH")
  else if seconds now + _FUTURE_IAT_LEEWAY_SECONDS < claims.iat then
    .error (.token_error "TOKEN_MALFORMED")
  else
    match revocation_store with
    | none => .ok claims
    | some is_revoked =>
        if is_revoked claims.jti then .error (.token_error "JTI_REVOKED") else .ok claims

-- The claims a token carries once its signature has been compared.
def authenticate (secret : Secret) (token : List Char) : Except Raised Json :=
  match token.splitOn '.' with
  | [encoded_header, encoded_payload, encoded_signature] =>
      if encoded_header = [] ∨ encoded_payload = [] ∨ encoded_signature = [] then
        .error (.token_error "TOKEN_MALFORMED")
      else
        match read_part refuses "TOKEN_MALFORMED" encoded_header with
        | .error raised => .error raised
        | .ok header =>
            if ¬is_cap_v1 header then .error (.token_error "TOKEN_MALFORMED")
            else
              match _mac hmac secret.key (encoded_header ++ '.' :: encoded_payload),
                ascii encoded_signature with
              | some expected_signature, some _ =>
                  if expected_signature ≠ encoded_signature then
                    .error (.token_error "BAD_SIGNATURE")
                  else read_part refuses "BAD_SIGNATURE" encoded_payload
              | _, _ => .error .unicode_encode_error
  | _ => .error (.token_error "TOKEN_MALFORMED")

def verify (token : List Char) (aud : String) (secret : Secret) (now : ℚ)
    (revocation_store : Option (String → Bool)) : Except Raised Claims :=
  match authenticate hmac refuses secret token with
  | .error raised => .error raised
  | .ok raw_claims =>
      match well_formed raw_claims with
      | none => .error (.token_error "TOKEN_MALFORMED")
      | some claims => settled aud now revocation_store claims

end Token

section Clock

theorem intCast_le_iff (n : Int) (now : ℚ) : (n : ℚ) ≤ now ↔ n * now.den ≤ now.num := by
  rw [Rat.le_iff, Rat.num_intCast, Rat.den_intCast]
  simp

theorem le_intCast_iff (n : Int) (now : ℚ) : now ≤ (n : ℚ) ↔ now.num ≤ n * now.den := by
  rw [Rat.le_iff, Rat.num_intCast, Rat.den_intCast]
  simp

theorem den_pos (now : ℚ) : (0 : Int) < now.den := Int.natCast_pos.mpr now.den_pos

theorem le_seconds {n : Int} {now : ℚ} (h : (n : ℚ) ≤ now) : n ≤ seconds now :=
  Int.le_tdiv_of_mul_le (den_pos now) ((intCast_le_iff n now).mp h)

theorem seconds_le {n : Int} {now : ℚ} (h : now ≤ (n : ℚ)) : seconds now ≤ n := by
  have hle := Int.tdiv_le_tdiv (den_pos now) ((le_intCast_iff n now).mp h)
  rwa [Int.mul_tdiv_cancel _ (den_pos now).ne'] at hle

theorem seconds_lt {n : Int} {now : ℚ} (h : now < (n : ℚ)) (hn : 0 < n ∨ now ≤ ((n - 1 : Int) : ℚ)) :
    seconds now < n := by
  cases hn with
  | inr hle => exact Int.lt_of_le_sub_one (seconds_le hle)
  | inl hpos =>
      cases le_total 0 now.num with
      | inr hneg =>
          have hzero : seconds now ≤ 0 :=
            seconds_le ((le_intCast_iff 0 now).mpr (by simpa using hneg))
          exact lt_of_le_of_lt hzero hpos
      | inl hnum =>
          have hlt : now.num < n * now.den :=
            not_le.mp (fun hle => not_le.mpr h ((intCast_le_iff n now).mpr hle))
          rw [seconds, Int.tdiv_eq_ediv_of_nonneg hnum]
          exact Int.ediv_lt_of_lt_mul (den_pos now) hlt

end Clock

section Parts

theorem ascii_eq {text : List Char} (htext : ∀ c ∈ text, c.toNat < 0x80) :
    ascii text = some (text.map (fun c => UInt8.ofNat c.toNat)) := by
  rw [ascii, if_pos (List.all_eq_true.mpr (fun c hc => decide_eq_true (htext c hc)))]

theorem of_ascii {text : List Char} {bytes : List UInt8} (h : ascii text = some bytes) :
    (∀ c ∈ text, c.toNat < 0x80) ∧ bytes = text.map (fun c => UInt8.ofNat c.toNat) := by
  unfold ascii at h
  split at h
  · rename_i hall
    exact ⟨fun c hc => of_decide_eq_true (List.all_eq_true.mp hall c hc), (Option.some.inj h).symm⟩
  · cases h

theorem ascii_injective {first second : List Char} {bytes : List UInt8}
    (hfirst : ascii first = some bytes) (hsecond : ascii second = some bytes) : first = second := by
  obtain ⟨hfirst, hbytes⟩ := of_ascii hfirst
  obtain ⟨hsecond, hsame⟩ := of_ascii hsecond
  have hcode : ∀ text : List Char, (∀ c ∈ text, c.toNat < 0x80) →
      (text.map (fun c => UInt8.ofNat c.toNat)).map (fun byte => Char.ofNat byte.toNat) = text := by
    intro text htext
    rw [List.map_map]
    refine (List.map_congr_left (fun c hc => ?_)).trans (List.map_id text)
    have hbyte : (UInt8.ofNat c.toNat).toNat = c.toNat :=
      UInt8.toNat_ofNat_of_lt' (lt_trans (htext c hc) (by decide))
    rw [Function.comp_apply, hbyte, Char.ofNat_toNat, id]
  rw [← hcode first hfirst, ← hbytes, hsame, hcode second hsecond]

theorem b64_decode_encode (raw : List UInt8) : _b64_decode (_b64_encode raw) = some raw := by
  have hpadded : ∀ c ∈ Base64.padded (Base64.encode raw), c.toNat < 0x80 := by
    intro c hc
    rcases List.mem_append.mp hc with hc | hc
    · exact Base64.encode_ascii hc
    · rw [List.eq_of_mem_replicate hc]
      decide
  rw [_b64_decode, _b64_encode, ascii_eq hpadded, Option.bind_some, Base64.decode_encode]

theorem dot_not_mem (raw : List UInt8) : '.' ∉ _b64_encode raw := by
  intro hc
  obtain ⟨n, hn, hdigit⟩ := Base64.mem_encode hc
  have hvalue := (Base64.digit_spec hn).2.1
  rw [← hdigit] at hvalue
  cases hvalue

theorem splitOn_dots {header payload signature : List Char} (hheader : '.' ∉ header)
    (hpayload : '.' ∉ payload) (hsignature : '.' ∉ signature) :
    ((header ++ '.' :: payload) ++ '.' :: signature).splitOn '.' = [header, payload, signature] := by
  rw [List.append_assoc, List.cons_append, List.splitOn_append_cons_self_of_not_mem hheader,
    List.splitOn_append_cons_self_of_not_mem hpayload, List.splitOn_eq_singleton hsignature]

end Parts

section Mint

-- The claims as they are asked for.
def minted (fresh : String) (sub : String) (scopes : List String) (aud : String) (now : ℚ)
    (ttl_seconds : Int) (jti : Option String) : Claims where
  sub := strip sub
  scopes := fromkeys scopes
  aud := strip aud
  iat := seconds now
  exp := seconds now + ttl_seconds
  jti := jti.getD fresh

structure Proper (claims : Claims) : Prop where
  sub_ne : claims.sub ≠ ""
  sub_length : claims.sub.length ≤ _MAX_SUB_LENGTH
  aud_ne : claims.aud ≠ ""
  aud_length : claims.aud.length ≤ _MAX_AUD_LENGTH
  jti_ne : claims.jti ≠ ""
  jti_length : claims.jti.length ≤ _MAX_JTI_LENGTH
  scopes_ne : claims.scopes ≠ []
  scopes_nodup : claims.scopes.Nodup
  scopes_known : ∀ scope ∈ claims.scopes, scope ∈ CAPABILITY_SCOPES
  lasts : claims.iat < claims.exp
  iat_digits : claims.iat.natAbs < 10 ^ MAX_STR_DIGITS
  exp_digits : claims.exp.natAbs < 10 ^ MAX_STR_DIGITS

def written (claims : Claims) : List Char :=
  _ENCODED_HEADER ++ '.' :: _b64_encode (Json.utf8 (Json.dumpsAscii (payload claims)))

theorem mint_ok {hmac : List UInt8 → List UInt8 → List UInt8} {shown : List String → String}
    {fresh sub aud : String} {scopes : List String} {secret : Secret} {now : ℚ} {ttl_seconds : Int}
    {jti : Option String} {token : List Char}
    (hmint : mint hmac shown fresh sub scopes aud secret now ttl_seconds jti = .ok token) :
    Proper (minted fresh sub scopes aud now ttl_seconds jti) ∧
      ∃ signature, _mac hmac secret.key (written (minted fresh sub scopes aud now ttl_seconds jti)) =
          some signature ∧
        token = written (minted fresh sub scopes aud now ttl_seconds jti) ++ '.' :: signature := by
  simp only [mint] at hmint
  split at hmint
  · cases hmint
  rename_i hsub
  split at hmint
  · cases hmint
  rename_i haud
  split at hmint
  · cases hmint
  rename_i hscopes
  split at hmint
  · cases hmint
  rename_i hunknown
  split at hmint
  · cases hmint
  rename_i httl
  split at hmint
  · cases hmint
  rename_i hjti
  split at hmint
  · cases hmint
  rename_i hdigits
  split at hmint
  · cases hmint
  rename_i signature hmac
  obtain ⟨hpos, -⟩ := not_not.mp httl
  push Not at hsub haud hjti hdigits
  refine ⟨?_, signature, hmac, (Except.ok.inj hmint).symm⟩
  have hknown : ∀ scope ∈ fromkeys scopes, scope ∈ CAPABILITY_SCOPES := by
    intro scope hscope
    have hnil := not_not.mp hunknown
    have hkeep := List.filter_eq_nil_iff.mp hnil scope hscope
    simpa using hkeep
  exact
    { sub_ne := hsub.1
      sub_length := hsub.2
      aud_ne := haud.1
      aud_length := haud.2
      jti_ne := hjti.1
      jti_length := hjti.2
      scopes_ne := hscopes
      scopes_nodup := nodup_fromkeys scopes
      scopes_known := hknown
      lasts := by simp only [minted]; omega
      iat_digits := hdigits.1
      exp_digits := hdigits.2 }

theorem written_ascii (claims : Claims) : ∀ c ∈ written claims, c.toNat < 0x80 := by
  intro c hc
  rcases List.mem_append.mp hc with hc | hc
  · exact Base64.encode_ascii hc
  · rcases List.mem_cons.mp hc with rfl | hc
    · decide
    · exact Base64.encode_ascii hc

theorem mint_accepts (hmac : List UInt8 → List UInt8 → List UInt8) (shown : List String → String)
    {fresh sub aud : String} {scopes : List String} (secret : Secret) {now : ℚ} {ttl_seconds : Int}
    {jti : Option String} (hclaims : Proper (minted fresh sub scopes aud now ttl_seconds jti))
    (httl : 0 < ttl_seconds ∧ ttl_seconds ≤ MAX_TTL_SECONDS) :
    ∃ token, mint hmac shown fresh sub scopes aud secret now ttl_seconds jti = .ok token := by
  have hsub : ¬(strip sub = "" ∨ _MAX_SUB_LENGTH < (strip sub).length) :=
    not_or.mpr ⟨hclaims.sub_ne, not_lt.mpr hclaims.sub_length⟩
  have haud : ¬(strip aud = "" ∨ _MAX_AUD_LENGTH < (strip aud).length) :=
    not_or.mpr ⟨hclaims.aud_ne, not_lt.mpr hclaims.aud_length⟩
  have hjti : ¬(jti.getD fresh = "" ∨ _MAX_JTI_LENGTH < (jti.getD fresh).length) :=
    not_or.mpr ⟨hclaims.jti_ne, not_lt.mpr hclaims.jti_length⟩
  have hscopes : ¬fromkeys scopes = [] := hclaims.scopes_ne
  have hunknown : ¬(fromkeys scopes).filter (· ∉ CAPABILITY_SCOPES) ≠ [] := by
    refine not_not.mpr (List.filter_eq_nil_iff.mpr (fun scope hscope => ?_))
    simpa using hclaims.scopes_known scope hscope
  have hdigits : ¬(10 ^ MAX_STR_DIGITS ≤ (seconds now).natAbs ∨
      10 ^ MAX_STR_DIGITS ≤ (seconds now + ttl_seconds).natAbs) :=
    not_or.mpr ⟨not_le.mpr hclaims.iat_digits, not_le.mpr hclaims.exp_digits⟩
  have hascii := ascii_eq (written_ascii (minted fresh sub scopes aud now ttl_seconds jti))
  unfold written minted at hascii
  simp only [mint, if_neg hsub, if_neg haud, if_neg hscopes, if_neg hunknown,
    if_neg (not_not.mpr httl), if_neg hjti, if_neg hdigits, _mac, hascii, Option.map_some]
  exact ⟨_, rfl⟩

end Mint

section Read

-- A written object of lists, with no integer of more digits than that, is within both limits.
def Lenient (refuses : List Char → Option Json.LoadsError) : Prop :=
  ∀ value, Json.Printable value → Json.depth (Json.sortKeys value) ≤ 2 →
    Json.magnitude value < 10 ^ MAX_STR_DIGITS → refuses (Json.dumpsAscii value) = none

variable {refuses : List Char → Option Json.LoadsError} (hlenient : Lenient refuses) (code : String)
include hlenient

theorem read_written (key : String) (value : Json) (rest : List (String × Json))
    (hv : Json.Printable (.obj ((key, value) :: rest)))
    (hdepth : Json.depth (Json.sortKeys (.obj ((key, value) :: rest))) ≤ 2)
    (hdigits : Json.magnitude (.obj ((key, value) :: rest)) < 10 ^ MAX_STR_DIGITS) :
    read_part refuses code
        (_b64_encode (Json.utf8 (Json.dumpsAscii (.obj ((key, value) :: rest))))) =
      .ok (Json.sortKeys (.obj ((key, value) :: rest))) := by
  rw [read_part, b64_decode_encode, Option.bind_some, Json.decodeBytes_dumpsAscii]
  simp only [hlenient _ hv hdepth hdigits, Json.loads_dumpsAscii _ hv, Option.elim_some]

theorem read_header :
    ∃ header, read_part refuses code _ENCODED_HEADER = .ok header ∧ is_cap_v1 header = true := by
  have hsorted : Json.sortKeys _HEADER_PAYLOAD = _HEADER_PAYLOAD := by
    simp [_HEADER_PAYLOAD, Json.sortKeys, Json.sortMembers, List.insertionSort]
  refine ⟨_, read_written hlenient code _ _ _ ?_ ?_ (Nat.pow_pos (by decide)), ?_⟩
  · refine ⟨by simp, ?_⟩
    simp [Json.PrintableMembers, Json.Printable]
  · rw [← _HEADER_PAYLOAD, hsorted]
    simp [_HEADER_PAYLOAD, Json.depth, Json.depthMembers]
  · rw [← _HEADER_PAYLOAD, hsorted]
    rfl

end Read

section Payload

theorem sortItems_map_str (texts : List String) :
    Json.sortItems (texts.map .str) = texts.map .str := by
  induction texts with
  | nil => rfl
  | cons text rest ih => simp [Json.sortItems, Json.sortKeys, ih]

theorem printableItems_map_str (texts : List String) : Json.PrintableItems (texts.map .str) := by
  induction texts with
  | nil => trivial
  | cons text rest ih => exact ⟨trivial, ih⟩

theorem printable_payload (claims : Claims) : Json.Printable (payload claims) := by
  refine ⟨by simp, ?_⟩
  simp [Json.PrintableMembers, Json.Printable, printableItems_map_str]

theorem sortKeys_payload (claims : Claims) :
    Json.sortKeys (payload claims) =
      .obj [("aud", .str claims.aud), ("exp", .int claims.exp), ("iat", .int claims.iat),
        ("jti", .str claims.jti), ("scopes", .arr (claims.scopes.map .str)),
        ("sub", .str claims.sub)] := by
  simp [Json.sortKeys, payload, Json.sortMembers, List.insertionSort, List.orderedInsert,
    sortItems_map_str]

theorem depth_payload (claims : Claims) : Json.depth (Json.sortKeys (payload claims)) ≤ 2 := by
  rw [sortKeys_payload]
  simp [Json.depth, Json.depthMembers, Json.depthItems_map_str]

theorem magnitude_payload {claims : Claims} (hclaims : Proper claims) :
    Json.magnitude (payload claims) < 10 ^ MAX_STR_DIGITS := by
  simp [payload, Json.magnitude, Json.magnitudeMembers, Json.magnitudeItems_map_str,
    hclaims.iat_digits, hclaims.exp_digits]

theorem mapM_known_scope {scopes : List String}
    (hknown : ∀ scope ∈ scopes, scope ∈ CAPABILITY_SCOPES) :
    (scopes.map Json.str).mapM known_scope = some scopes := by
  induction scopes with
  | nil => rfl
  | cons scope rest ih =>
      have hscope : known_scope (.str scope) = some scope := if_pos (hknown scope List.mem_cons_self)
      have hrest := ih (fun other hother => hknown other (List.mem_cons_of_mem scope hother))
      rw [List.map_cons, List.mapM_cons, hscope, hrest]
      rfl

theorem fromkeys_of_nodup {items : List String} (hitems : items.Nodup) : fromkeys items = items := by
  rw [fromkeys, List.Nodup.dedup (List.nodup_reverse.mpr hitems), List.reverse_reverse]

theorem well_formed_payload {claims : Claims} (hclaims : Proper claims) :
    well_formed (Json.sortKeys (payload claims)) = some claims := by
  have hscopes : claims.scopes.map Json.str ≠ [] := by simpa using hclaims.scopes_ne
  have hpasses : ¬(claims.sub = "" ∨ _MAX_SUB_LENGTH < claims.sub.length ∨ claims.aud = "" ∨
      _MAX_AUD_LENGTH < claims.aud.length ∨ claims.jti = "" ∨ _MAX_JTI_LENGTH < claims.jti.length ∨
      claims.scopes.map Json.str = [] ∨ claims.exp ≤ claims.iat) := by
    push Not
    exact ⟨hclaims.sub_ne, hclaims.sub_length, hclaims.aud_ne, hclaims.aud_length, hclaims.jti_ne,
      hclaims.jti_length, hscopes, hclaims.lasts⟩
  rw [sortKeys_payload]
  simp only [well_formed, Json.get?, List.find?_cons, String.reduceEq,
    decide_false, decide_true, Option.map_some, if_neg hpasses, mapM_known_scope hclaims.scopes_known,
    fromkeys_of_nodup hclaims.scopes_nodup]

end Payload

end KnowledgeCompiler.Trust
