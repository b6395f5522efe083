import KnowledgeCompiler.Lib.Sha256
import KnowledgeCompiler.Trust.CapabilityToken

namespace KnowledgeCompiler.Trust

open Lib

variable (hmac : List UInt8 → List UInt8 → List UInt8)
variable (refuses : List Char → Option Json.LoadsError)

section Authentic

def parts (token : List Char) : List (List Char) := token.splitOn '.'

-- The bytes before the last dot, and those after it.
def signed (token : List Char) : List Char := List.intercalate ['.'] (parts token).dropLast

def signature (token : List Char) : List Char := (parts token).getLastD []

theorem parts_written (claims : Claims) {suffix : List Char} (hsuffix : '.' ∉ suffix) :
    parts (written claims ++ '.' :: suffix) =
      [_ENCODED_HEADER, _b64_encode (Json.utf8 (Json.dumpsAscii (payload claims))), suffix] :=
  splitOn_dots (dot_not_mem _) (dot_not_mem _) hsuffix

variable {hmac refuses}

theorem mac_some {key : List UInt8} {signing_input tag : List Char}
    (hmac_eq : _mac hmac key signing_input = some tag) :
    ∃ message, ascii signing_input = some message ∧ tag = _b64_encode (hmac key message) := by
  obtain ⟨message, hmessage, htag⟩ := Option.map_eq_some_iff.mp hmac_eq
  exact ⟨message, hmessage, htag.symm⟩

-- Nothing is read before its signature has been computed anew.
theorem authenticate_ok {secret : Secret} {token : List Char} {raw_claims : Json}
    (h : authenticate hmac refuses secret token = .ok raw_claims) :
    _mac hmac secret.key (signed token) = some (signature token) := by
  unfold authenticate at h
  split at h
  · rename_i encoded_header encoded_payload encoded_signature hparts
    split at h
    · cases h
    split at h
    · cases h
    split at h
    · cases h
    split at h
    · rename_i expected_signature _ hexpected _
      split at h
      · cases h
      rename_i hsame
      have hparts : parts token = [encoded_header, encoded_payload, encoded_signature] := hparts
      have hsigned : signed token = encoded_header ++ '.' :: encoded_payload := by
        simp [signed, hparts, List.intercalate]
      have hsignature : signature token = encoded_signature := by simp [signature, hparts]
      rw [hsigned, hsignature, hexpected, not_not.mp hsame]
    · cases h
  · cases h

theorem verify_ok {token : List Char} {aud : String} {secret : Secret} {now : ℚ}
    {revocation_store : Option (String → Bool)} {claims : Claims}
    (h : verify hmac refuses token aud secret now revocation_store = .ok claims) :
    _mac hmac secret.key (signed token) = some (signature token) := by
  unfold verify at h
  split at h
  · cases h
  · rename_i raw_claims hauthentic
    exact authenticate_ok hauthentic

theorem encoded_object_ne (key : String) (value : Json) (rest : List (String × Json)) :
    _b64_encode (Json.utf8 (Json.dumpsAscii (.obj ((key, value) :: rest)))) ≠ [] := by
  obtain ⟨more, hmore⟩ := Json.utf8_object key value rest
  exact Base64.encode_ne_nil (by simp [hmore])

theorem verify_written {secret : Secret} {claims : Claims} {tag : List Char}
    (hlenient : Lenient refuses) (hdigest : ∀ key message, hmac key message ≠ [])
    (hclaims : Proper claims) (htag : _mac hmac secret.key (written claims) = some tag)
    (aud : String) (now : ℚ) (revocation_store : Option (String → Bool)) :
    verify hmac refuses (written claims ++ '.' :: tag) aud secret now revocation_store =
      settled aud now revocation_store claims := by
  obtain ⟨message, hmessage, rfl⟩ := mac_some htag
  obtain ⟨header, hheader, hcap⟩ := read_header hlenient "TOKEN_MALFORMED"
  have hbody := read_written hlenient "BAD_SIGNATURE" _ _ _ (printable_payload claims)
    (depth_payload claims) (magnitude_payload hclaims)
  have hparts := parts_written claims (dot_not_mem (hmac secret.key message))
  have htag_ascii : ascii (_b64_encode (hmac secret.key message)) ≠ none := by
    rw [_b64_encode, ascii_eq (fun _ hc => Base64.encode_ascii hc)]
    exact Option.some_ne_none _
  have hnonempty : ¬(_ENCODED_HEADER = [] ∨
      _b64_encode (Json.utf8 (Json.dumpsAscii (payload claims))) = [] ∨
      _b64_encode (hmac secret.key message) = []) := by
    push Not
    exact ⟨encoded_object_ne _ _ _, encoded_object_ne _ _ _, Base64.encode_ne_nil (hdigest _ _)⟩
  have hauthentic : authenticate hmac refuses secret
      (written claims ++ '.' :: _b64_encode (hmac secret.key message)) =
        .ok (Json.sortKeys (payload claims)) := by
    obtain ⟨supplied, hsupplied⟩ := Option.ne_none_iff_exists'.mp htag_ascii
    unfold parts at hparts
    simp only [authenticate, hparts, if_neg hnonempty, hheader, hcap, not_true_eq_false, if_false]
    rw [← written, htag, hsupplied]
    simp only [ne_eq, not_true_eq_false, if_false]
    exact hbody
  simp only [verify, hauthentic, well_formed_payload hclaims]

end Authentic

section Delegation

-- A store in which the claims have not been withdrawn.
def Unrevoked (revocation_store : Option (String → Bool)) (jti : String) : Prop :=
  ∀ is_revoked, revocation_store = some is_revoked → is_revoked jti = false

-- Under this key the two texts, if they can be signed, have one digest only if they are one.
def Uncollided (secret : Secret) (first second : List Char) : Prop :=
  ∀ message other, ascii first = some message → ascii second = some other →
    hmac secret.key message = hmac secret.key other → message = other

-- A token gives back its claims from a minute before it was issued until it expires.
structure Delegates (secret : Secret) (token : List Char) (claims : Claims) : Prop where
  returned : ∀ aud now revocation_store, strip aud = claims.aud →
    ((claims.iat - 60 : Int) : ℚ) ≤ now → now < (claims.exp : ℚ) →
    0 < claims.exp ∨ now ≤ ((claims.exp - 1 : Int) : ℚ) →
    Unrevoked revocation_store claims.jti →
      verify hmac refuses token aud secret now revocation_store = .ok claims
  expired : ∀ aud now revocation_store, (claims.exp : ℚ) ≤ now →
    verify hmac refuses token aud secret now revocation_store =
      .error (.token_error "TOKEN_EXPIRED")
  other_audience : ∀ aud now revocation_store, strip aud ≠ claims.aud →
    ∃ code, verify hmac refuses token aud secret now revocation_store = .error (.token_error code)
  revoked : ∀ aud now is_revoked, is_revoked claims.jti = true →
    ∃ code, verify hmac refuses token aud secret now (some is_revoked) = .error (.token_error code)
  forged : ∀ other aud now revocation_store, signature other = signature token →
    signed other ≠ signed token → Uncollided hmac secret (signed other) (signed token) →
    ∃ raised, verify hmac refuses other aud secret now revocation_store = .error raised

variable {hmac refuses}

theorem admit_ok {claims : Claims} {aud : String} {now : ℚ}
    {revocation_store : Option (String → Bool)} (haud : strip aud = claims.aud)
    (hiat : ((claims.iat - 60 : Int) : ℚ) ≤ now) (hexp : now < (claims.exp : ℚ))
    (hsecond : 0 < claims.exp ∨ now ≤ ((claims.exp - 1 : Int) : ℚ))
    (hstore : Unrevoked revocation_store claims.jti) :
    settled aud now revocation_store claims = .ok claims := by
  have hlate := seconds_lt hexp hsecond
  have hearly := le_seconds hiat
  have hleeway : ¬seconds now + _FUTURE_IAT_LEEWAY_SECONDS < claims.iat := by
    unfold _FUTURE_IAT_LEEWAY_SECONDS
    omega
  rw [settled.eq_def, if_neg (not_le.mpr hlate), if_neg (not_not.mpr haud.symm), if_neg hleeway]
  cases revocation_store with
  | none => rfl
  | some is_revoked => simp [hstore is_revoked rfl]

theorem admit_error {claims : Claims} {aud : String} {now : ℚ}
    {revocation_store : Option (String → Bool)}
    (h : (claims.exp : ℚ) ≤ now ∨ strip aud ≠ claims.aud ∨
      ∃ is_revoked, revocation_store = some is_revoked ∧ is_revoked claims.jti = true) :
    ∃ code, settled aud now revocation_store claims = .error (.token_error code) := by
  by_cases hlate : claims.exp ≤ seconds now
  · exact ⟨_, if_pos hlate⟩
  by_cases haud : claims.aud = strip aud
  · by_cases hfuture : seconds now + _FUTURE_IAT_LEEWAY_SECONDS < claims.iat
    · exact ⟨_, by rw [settled.eq_def, if_neg hlate, if_neg (not_not.mpr haud), if_pos hfuture]⟩
    · obtain hexp | hother | ⟨is_revoked, rfl, hrevoked⟩ := h
      · exact absurd (le_seconds hexp) hlate
      · exact absurd haud.symm hother
      · refine ⟨"JTI_REVOKED", ?_⟩
        rw [settled.eq_def, if_neg hlate, if_neg (not_not.mpr haud), if_neg hfuture]
        exact if_pos hrevoked
  · exact ⟨_, by rw [settled.eq_def, if_neg hlate, if_pos haud]⟩

theorem dot_not_mem_mac {key : List UInt8} {signing_input tag : List Char}
    (htag : _mac hmac key signing_input = some tag) : '.' ∉ tag := by
  obtain ⟨message, -, rfl⟩ := mac_some htag
  exact dot_not_mem _

theorem signature_written (claims : Claims) {suffix : List Char} (hsuffix : '.' ∉ suffix) :
    signature (written claims ++ '.' :: suffix) = suffix ∧
      signed (written claims ++ '.' :: suffix) = written claims := by
  have hparts := parts_written claims hsuffix
  refine ⟨by simp [signature, hparts], ?_⟩
  rw [signed, hparts, written]
  simp [List.intercalate]

theorem forgery_fails {secret : Secret} {claims : Claims} {tag other : List Char}
    (htag : _mac hmac secret.key (written claims) = some tag) (hsignature : signature other = tag)
    (hdiffers : signed other ≠ written claims)
    (huncollided : Uncollided hmac secret (signed other) (written claims)) (aud : String) (now : ℚ)
    (revocation_store : Option (String → Bool)) :
    ∃ raised, verify hmac refuses other aud secret now revocation_store = .error raised := by
  cases hverify : verify hmac refuses other aud secret now revocation_store with
  | error raised => exact ⟨raised, rfl⟩
  | ok found =>
      obtain ⟨message, hmessage, hcode⟩ := mac_some htag
      obtain ⟨message', hmessage', hcode'⟩ := mac_some (verify_ok hverify)
      have hdigests := Base64.encode_injective ((hcode'.symm.trans hsignature).trans hcode)
      obtain rfl := huncollided message' message hmessage' hmessage hdigests
      exact absurd (ascii_injective hmessage' hmessage) hdiffers

variable (hmac refuses)

theorem mint_delegates (hlenient : Lenient refuses)
    (hdigest : ∀ key message, hmac key message ≠ [])
    (shown : List String → String) (fresh sub : String) (scopes : List String) (aud : String)
    (secret : Secret) (now : ℚ) (ttl_seconds : Int) (jti : Option String) (token : List Char)
    (hmint : mint hmac shown fresh sub scopes aud secret now ttl_seconds jti = .ok token) :
    Delegates hmac refuses secret token (minted fresh sub scopes aud now ttl_seconds jti) := by
  obtain ⟨hclaims, tag, htag, rfl⟩ := mint_ok hmint
  obtain ⟨hsignature, hsigned⟩ := signature_written _ (dot_not_mem_mac htag)
  have hverify := verify_written hlenient hdigest hclaims htag
  exact
    { returned := fun aud now store haud hiat hexp hsecond hstore =>
        (hverify aud now store).trans (admit_ok haud hiat hexp hsecond hstore)
      expired := fun aud now store hexp =>
        (hverify aud now store).trans (if_pos (le_seconds hexp))
      other_audience := fun aud now store hother => by
        rw [hverify]
        exact admit_error (.inr (.inl hother))
      revoked := fun aud now is_revoked hrevoked => by
        rw [hverify]
        exact admit_error (.inr (.inr ⟨is_revoked, rfl, hrevoked⟩))
      forged := fun other aud now store hsame hdiffers huncollided =>
        forgery_fails htag (hsame.trans hsignature) (hsigned ▸ hdiffers) (hsigned ▸ huncollided) aud
          now store }

theorem hmac_ne_nil (key message : List UInt8) : Sha256.hmac key message ≠ [] := by
  simp [Sha256.hmac, Sha256.digestBytes, Sha256.bigEndian]

theorem lenient_none : Lenient (fun _ => none) := fun _ _ _ _ => rfl

theorem digits_of_small {number : Int} (hsmall : number.natAbs < 10 ^ 10) :
    number.natAbs < 10 ^ MAX_STR_DIGITS :=
  lt_of_lt_of_le hsmall (Nat.pow_le_pow_right (by decide) (by decide))

def export_claims : Claims where
  sub := "alice"
  scopes := ["search:run", "export:run"]
  aud := "api"
  iat := 1000
  exp := 1900
  jti := "j1"

theorem proper_export_claims : Proper export_claims where
  sub_ne := by decide
  sub_length := by decide
  aud_ne := by decide
  aud_length := by decide
  jti_ne := by decide
  jti_length := by decide
  scopes_ne := by decide
  scopes_nodup := by decide
  scopes_known := by decide
  lasts := by decide
  iat_digits := digits_of_small (by decide)
  exp_digits := digits_of_small (by decide)

-- The same token with another subject, under the old signature.
def stolen (token : List Char) : List Char :=
  written { export_claims with sub := "mallory" } ++ '.' :: signature token

theorem stolen_mac_differs :
    (ascii (written { export_claims with sub := "mallory" })).map (Sha256.hmac (Secret.text "s").key) ≠
      (ascii (written export_claims)).map (Sha256.hmac (Secret.text "s").key) := by
  decide +kernel

theorem export_claims_delegated :
    ∃ token, mint Sha256.hmac String.join "" " alice " ["search:run", "export:run", "search:run"] "api"
        (.text "s") 1000 900 (some "j1") = .ok token ∧
      Delegates Sha256.hmac (fun _ => none) (.text "s") token export_claims ∧
      ∃ raised, verify Sha256.hmac (fun _ => none) (stolen token) "api" (.text "s") 1000 none =
        .error raised := by
  have hminted : minted "" " alice " ["search:run", "export:run", "search:run"] "api" 1000 900
      (some "j1") = export_claims := by decide
  obtain ⟨token, htoken⟩ := mint_accepts Sha256.hmac String.join (.text "s")
    (hminted ▸ proper_export_claims) (by decide)
  have hdelegates := mint_delegates Sha256.hmac (fun _ => none) lenient_none hmac_ne_nil
    _ _ _ _ _ _ _ _ _ _ htoken
  rw [hminted] at hdelegates
  obtain ⟨-, tag, htag, hwritten⟩ := mint_ok htoken
  rw [hminted] at htag hwritten
  have hdot := dot_not_mem_mac htag
  obtain ⟨hsignature, hsigned⟩ := signature_written export_claims hdot
  have hstolen : stolen token = written { export_claims with sub := "mallory" } ++ '.' :: tag := by
    rw [stolen, hwritten, hsignature]
  obtain ⟨hsame, hother⟩ := signature_written { export_claims with sub := "mallory" } hdot
  rw [← hstolen] at hsame hother
  rw [← hwritten] at hsignature hsigned
  refine ⟨token, htoken, hdelegates, hdelegates.forged (stolen token) "api" 1000 none
    (hsame.trans hsignature.symm) ?_ ?_⟩
  · rw [hother, hsigned]
    exact fun heq => stolen_mac_differs (by rw [heq])
  · rw [hother, hsigned]
    intro message other hmessage hother_message hmac
    refine absurd ?_ stolen_mac_differs
    rw [hmessage, hother_message, Option.map_some, Option.map_some, hmac]

-- Half a second before the end of 1969 a token that expires then has expired.
theorem last_second_before_zero :
    ∃ token, mint Sha256.hmac String.join "" "alice" ["search:run", "export:run"] "api" (.text "s") (-10)
        10 (some "j1") = .ok token ∧
      minted "" "alice" ["search:run", "export:run"] "api" (-10) 10 (some "j1") =
        { export_claims with iat := -10, exp := 0 } ∧
      (((-10 : Int) - 60 : Int) : ℚ) ≤ -1 / 2 ∧ (-1 / 2 : ℚ) < ((0 : Int) : ℚ) ∧
      verify Sha256.hmac (fun _ => none) token "api" (.text "s") (-1 / 2) none =
        .error (.token_error "TOKEN_EXPIRED") := by
  have hminted : minted "" "alice" ["search:run", "export:run"] "api" (-10) 10 (some "j1") =
      { export_claims with iat := -10, exp := 0 } := by decide
  have hproper : Proper { export_claims with iat := -10, exp := 0 } :=
    { proper_export_claims with
      lasts := by decide
      iat_digits := digits_of_small (by decide)
      exp_digits := digits_of_small (by decide) }
  obtain ⟨token, htoken⟩ := mint_accepts Sha256.hmac String.join (.text "s") (hminted ▸ hproper)
    (by decide)
  obtain ⟨-, tag, htag, hwritten⟩ := mint_ok htoken
  rw [hminted] at htag hwritten
  have hverify := @verify_written _ (fun _ => none) _ _ _ lenient_none hmac_ne_nil hproper htag "api"
    (-1 / 2) none
  have hseconds : seconds (-1 / 2) = 0 := by decide +kernel
  refine ⟨token, htoken, hminted, by norm_num, by norm_num, ?_⟩
  rw [hwritten, hverify, settled.eq_def, hseconds]
  rfl

end Delegation

section Closed

def FailsClosed {α : Type} (outcome : Except Raised α) : Prop :=
  (∃ value, outcome = .ok value) ∨ ∃ code, outcome = .error (.token_error code)

-- The text that a part encodes is nested too deeply to be read.
def TooDeep (part : List Char) : Prop :=
  ∃ text, (_b64_decode part).bind Json.decodeBytes = some text ∧ refuses text = some .recursion

-- The signature is computed and compared as ASCII, after the header has been read and
-- before the payload is.
def PartsEscape (secret : Secret) (header payload tag : List Char) : Prop :=
  TooDeep refuses header ∨
    ∃ value, read_part refuses "TOKEN_MALFORMED" header = .ok value ∧ is_cap_v1 value = true ∧
      (ascii (header ++ '.' :: payload) = none ∨ ascii tag = none ∨
        _mac hmac secret.key (header ++ '.' :: payload) = some tag ∧ TooDeep refuses payload)

def Escapes (secret : Secret) (token : List Char) : Prop :=
  ∃ header payload tag, parts token = [header, payload, tag] ∧
    ¬(header = [] ∨ payload = [] ∨ tag = []) ∧ PartsEscape hmac refuses secret header payload tag

variable {hmac refuses}

theorem escapes_iff {token header payload tag : List Char} {secret : Secret}
    (hparts : parts token = [header, payload, tag]) :
    Escapes hmac refuses secret token ↔
      ¬(header = [] ∨ payload = [] ∨ tag = []) ∧
        PartsEscape hmac refuses secret header payload tag := by
  constructor
  · rintro ⟨header', payload', tag', hparts', hescape⟩
    obtain ⟨rfl, rfl, rfl⟩ : header = header' ∧ payload = payload' ∧ tag = tag' := by
      simpa [hparts] using hparts'
    exact hescape
  · exact fun hescape => ⟨header, payload, tag, hparts, hescape⟩

theorem failsClosed_ok {α : Type} (value : α) : FailsClosed (.ok value) := .inl ⟨value, rfl⟩

theorem failsClosed_token_error {α : Type} (code : String) :
    FailsClosed (.error (.token_error code) : Except Raised α) := .inr ⟨code, rfl⟩

theorem read_part_recursion (code : String) (part : List Char) :
    read_part refuses code part = .error .recursion_error ↔ TooDeep refuses part := by
  unfold read_part TooDeep
  cases htext : (_b64_decode part).bind Json.decodeBytes with
  | none => simp
  | some text =>
      simp only [Option.some.injEq, exists_eq_left']
      cases refuses text with
      | none => cases Json.loads text <;> simp
      | some refused => cases refused <;> simp

theorem failsClosed_read_part (code : String) (part : List Char) :
    FailsClosed (read_part refuses code part) ↔ ¬TooDeep refuses part := by
  rw [← read_part_recursion code]
  unfold read_part
  split
  · simp [FailsClosed]
  · rename_i text _
    split
    · simp [FailsClosed]
    · simp [FailsClosed]
    · cases Json.loads text <;> simp [FailsClosed]

theorem mac_eq_none {key : List UInt8} {signing_input : List Char} :
    _mac hmac key signing_input = none ↔ ascii signing_input = none := Option.map_eq_none_iff

theorem authenticate_closed_iff (secret : Secret) (token : List Char) :
    FailsClosed (authenticate hmac refuses secret token) ↔ ¬Escapes hmac refuses secret token := by
  unfold authenticate
  split
  · rename_i header payload tag hparts
    rw [escapes_iff hparts, PartsEscape]
    split
    · rename_i hempty
      simp [hempty, failsClosed_token_error]
    rename_i hempty
    have hread : FailsClosed (read_part refuses "TOKEN_MALFORMED" header) ↔ _ :=
      failsClosed_read_part "TOKEN_MALFORMED" header
    split
    · rename_i raised hraised
      rw [hraised] at hread ⊢
      simpa [hempty] using hread
    rename_i value hvalue
    have hlenient : ¬TooDeep refuses header := hread.mp (hvalue ▸ failsClosed_ok value)
    simp only [hvalue, hlenient, false_or, Except.ok.injEq, exists_eq_left', hempty,
      not_false_eq_true, true_and]
    split
    · rename_i hcap
      simp [hcap, failsClosed_token_error]
    rename_i hcap
    split
    · rename_i expected supplied hexpected hsupplied
      have hascii : ascii (header ++ '.' :: payload) ≠ none :=
        fun hnone => by rw [mac_eq_none.mpr hnone] at hexpected; cases hexpected
      split
      · rename_i hdiffers
        simp [hascii, hexpected, hsupplied, hdiffers, failsClosed_token_error]
      · rename_i hdiffers
        have hsame := not_not.mp hdiffers
        rw [failsClosed_read_part]
        simp [hascii, hexpected, hsupplied, not_not.mp hcap, hsame]
    · rename_i hraises
      have hopen : ¬FailsClosed (.error .unicode_encode_error : Except Raised Json) := by
        simp [FailsClosed]
      have hnone : ascii (header ++ '.' :: payload) = none ∨ ascii tag = none := by
        by_contra hboth
        push Not at hboth
        obtain ⟨supplied, hsupplied⟩ := Option.ne_none_iff_exists'.mp hboth.2
        obtain ⟨expected, hexpected⟩ := Option.ne_none_iff_exists'.mp
          (mt (@mac_eq_none hmac secret.key _).mp hboth.1)
        exact hraises expected supplied hexpected hsupplied
      simp only [hopen, not_not.mp hcap, true_and, false_iff, not_not]
      exact or_assoc.mp (.inl hnone)
  · rename_i hparts
    have hnot : ¬Escapes hmac refuses secret token := by
      rintro ⟨header, payload, tag, hthree, -⟩
      exact hparts header payload tag hthree
    simp [hnot, failsClosed_token_error]

theorem admit_closed (aud : String) (now : ℚ) (revocation_store : Option (String → Bool))
    (claims : Claims) : FailsClosed (settled aud now revocation_store claims) := by
  unfold settled
  split
  · exact failsClosed_token_error _
  split
  · exact failsClosed_token_error _
  split
  · exact failsClosed_token_error _
  cases revocation_store with
  | none => exact failsClosed_ok claims
  | some is_revoked =>
      dsimp only
      split
      · exact failsClosed_token_error _
      · exact failsClosed_ok claims

variable (hmac refuses)

theorem verify_closed_iff (token : List Char) (aud : String) (secret : Secret) (now : ℚ)
    (revocation_store : Option (String → Bool)) :
    FailsClosed (verify hmac refuses token aud secret now revocation_store) ↔
      ¬Escapes hmac refuses secret token := by
  rw [← authenticate_closed_iff]
  unfold verify
  split
  · rename_i raised hauthentic
    rw [hauthentic]
    simp [FailsClosed]
  · rename_i raw_claims hauthentic
    rw [hauthentic]
    split
    · simp [failsClosed_token_error, failsClosed_ok]
    · simp [admit_closed, failsClosed_ok]

-- The payload need not be authentic for its signature to be encoded.
theorem verify_accented (hmac : List UInt8 → List UInt8 → List UInt8) (aud : String) (secret : Secret)
    (now : ℚ) :
    verify hmac (fun _ => none) (_ENCODED_HEADER ++ ".e30.é".toList) aud secret now none =
      .error .unicode_encode_error := by
  obtain ⟨header, hheader, hcap⟩ := read_header lenient_none "TOKEN_MALFORMED"
  have htoken : _ENCODED_HEADER ++ ".e30.é".toList =
      (_ENCODED_HEADER ++ '.' :: "e30".toList) ++ '.' :: "é".toList := by
    rw [List.append_assoc]
    rfl
  have hparts : ((_ENCODED_HEADER ++ '.' :: "e30".toList) ++ '.' :: "é".toList).splitOn '.' =
      [_ENCODED_HEADER, "e30".toList, "é".toList] :=
    splitOn_dots (dot_not_mem _) (by decide) (by decide)
  have hnonempty : ¬(_ENCODED_HEADER = [] ∨ "e30".toList = [] ∨ "é".toList = []) := by
    push Not
    exact ⟨encoded_object_ne _ _ _, by decide, by decide⟩
  have haccent : ascii "é".toList = none := by decide
  rw [htoken]
  simp only [verify, authenticate, hparts, if_neg hnonempty, hheader, hcap, haccent,
    not_true_eq_false, if_false]
  cases _mac hmac secret.key (_ENCODED_HEADER ++ '.' :: "e30".toList) <;> rfl

theorem accented_signature_escapes :
    ¬FailsClosed
      (verify Sha256.hmac (fun _ => none) (_ENCODED_HEADER ++ ".e30.é".toList) "worlds"
        (.text "0123456789abcdef") 0 none) := by
  rw [verify_accented]
  simp [FailsClosed]

end Closed

end KnowledgeCompiler.Trust
