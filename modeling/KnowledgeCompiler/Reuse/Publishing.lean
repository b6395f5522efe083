import KnowledgeCompiler.Reuse.ActionKey

namespace KnowledgeCompiler.Reuse

open Lib Method

section Digests

theorem of_mem_hexDigits {character : Char} (hmem : character ∈ "0123456789abcdef".toList) :
    Text.isSpace character = false ∧ character.toLower = character ∧ character ≠ 's' := by
  have hdigits : "0123456789abcdef".toList.all (fun digit =>
      Text.isSpace digit = false ∧ digit.toLower = digit ∧ digit ≠ 's') = true := by decide
  exact of_decide_eq_true (List.all_eq_true.mp hdigits character hmem)

theorem mem_of_is_digest {text : List Char} (hdigest : is_digest text = true) :
    text.length = 64 ∧ ∀ character ∈ text, character ∈ "0123456789abcdef".toList := by
  simpa only [is_digest, Bool.and_eq_true, decide_eq_true_eq, List.all_eq_true] using hdigest

theorem is_digest_sha256 (bytes : ByteArray) : is_digest (sha256.hexdigest bytes).toList = true := by
  have hhex : ∀ d < 16, Nat.digitChar d ∈ "0123456789abcdef".toList := by decide
  have hlength : (sha256.hexdigest bytes).toList.length = 64 := by
    simp [sha256, Sha256.hexdigest, Sha256.hexWord]
  simp only [is_digest, Bool.and_eq_true, decide_eq_true_eq, List.all_eq_true]
  refine ⟨hlength, fun character hc => ?_⟩
  obtain ⟨d, hd, rfl⟩ := sha256.hex bytes character hc
  exact hhex d hd

theorem cleaned_of_is_digest {text : List Char} (hdigest : is_digest text = true) :
    cleaned (String.ofList text) = text := by
  obtain ⟨-, hmem⟩ := mem_of_is_digest hdigest
  have hstrip : Text.strip text = text :=
    Text.strip_of_not_space fun character hc => (of_mem_hexDigits (hmem character hc)).1
  unfold cleaned
  rw [String.toList_ofList, hstrip]
  calc text.map Char.toLower = text.map id :=
        List.map_congr_left fun character hc => (of_mem_hexDigits (hmem character hc)).2.1
    _ = text := List.map_id text

theorem normalize_of_is_digest {text : List Char} (hdigest : is_digest text = true) :
    _normalize_digest (String.ofList text) = .ok (String.ofList text) := by
  obtain ⟨hlength, hmem⟩ := mem_of_is_digest hdigest
  have hmark : "sha256:".toList.isPrefixOf text = false := by
    cases text with
    | nil => cases hlength
    | cons first rest =>
      have hfirst := (of_mem_hexDigits (hmem first List.mem_cons_self)).2.2
      simp [List.isPrefixOf, Ne.symm hfirst]
  unfold _normalize_digest
  dsimp only
  rw [cleaned_of_is_digest hdigest, hmark, if_neg Bool.false_ne_true, if_pos hdigest]

theorem is_digest_of_normalize {digest normal : String}
    (hnormal : _normalize_digest digest = .ok normal) : is_digest normal.toList = true := by
  obtain ⟨plain, hplain⟩ : ∃ plain : List Char, _normalize_digest digest =
      if is_digest plain then .ok (String.ofList plain)
      else .error (.value_error "input digest must be sha256 hex") := ⟨_, rfl⟩
  rw [hplain] at hnormal
  split at hnormal
  · rename_i hdigest
    cases hnormal
    rwa [String.toList_ofList]
  · cases hnormal

end Digests

section Inputs

-- Distinct paths in their order, each with a plain digest.
structure Normal (inputs : List InputPair) : Prop where
  sorted : inputs.Pairwise fun first second => first.1 < second.1
  named : ∀ pair ∈ inputs, is_blank pair.1 = false
  plain : ∀ pair ∈ inputs, is_digest pair.2.toList = true

theorem normalize_pair_eq_ok {seen seen' : Dict String String} {pair : InputPair}
    (hpair : normalize_pair seen pair = .ok seen') :
    ∃ digest, is_blank pair.1 = false ∧ is_digest digest.toList = true ∧
      seen' = seen.set pair.1 digest := by
  unfold normalize_pair at hpair
  split at hpair
  · cases hpair
  rename_i hblank
  obtain ⟨digest, hdigest, hpair⟩ := of_bind_eq_ok hpair
  split at hpair
  · cases hpair
  · cases hpair
    exact ⟨digest, by simpa using hblank, is_digest_of_normalize hdigest, rfl⟩

theorem normalize_pairs_keep (inputs : List InputPair) {seen : Dict String String}
    (hinputs : inputs.foldlM normalize_pair .empty = .ok seen) :
    ∀ path digest, seen.get? path = some digest →
      is_blank path = false ∧ is_digest digest.toList = true := by
  refine foldlM_keeps (fun seen => ∀ path digest, seen.get? path = some digest →
    is_blank path = false ∧ is_digest digest.toList = true) ?_ inputs (by simp) hinputs
  intro seen pair next hseen hpair path digest hpath
  obtain ⟨plain, hblank, hplain, rfl⟩ := normalize_pair_eq_ok hpair
  rw [Dict.get?_set] at hpath
  split at hpath
  · rename_i hsame
    cases hpath
    exact ⟨hsame ▸ hblank, hplain⟩
  · exact hseen path digest hpath

theorem normal_of_normalize {inputs normalized : List InputPair}
    (hinputs : _normalize_inputs inputs = .ok normalized) : Normal normalized := by
  obtain ⟨seen, hseen, hsorted⟩ := of_bind_eq_ok hinputs
  cases hsorted
  have hkeep := normalize_pairs_keep inputs hseen
  have hmem : ∀ pair ∈ seen.entries.insertionSort fun first second => first.1 ≤ second.1,
      seen.get? pair.1 = some pair.2 := fun pair hpair =>
    (seen.mem_entries_iff pair.1 pair.2).mp ((List.mem_insertionSort _).mp hpair)
  refine ⟨?_, fun pair hpair => (hkeep _ _ (hmem pair hpair)).1,
    fun pair hpair => (hkeep _ _ (hmem pair hpair)).2⟩
  have hle := seen.entries.pairwise_insertionSort fun first second => first.1 ≤ second.1
  have hperm := (seen.entries.perm_insertionSort fun first second => first.1 ≤ second.1).map Prod.fst
  have hne := List.pairwise_map.mp (hperm.nodup_iff.mpr seen.nodup)
  exact (hle.and hne).imp fun hboth => lt_of_le_of_ne hboth.1 hboth.2

theorem normalize_pairs_of_normal (inputs : List InputPair) (seen : Dict String String)
    (hnormal : Normal inputs) (hfresh : ∀ pair ∈ inputs, pair.1 ∉ seen.keys) :
    ∃ seen', inputs.foldlM normalize_pair seen = .ok seen' ∧
      seen'.entries = seen.entries ++ inputs := by
  induction inputs generalizing seen with
  | nil => exact ⟨seen, rfl, by simp⟩
  | cons pair rest ih =>
    obtain ⟨hsorted, hnamed, hplain⟩ := hnormal
    rw [List.pairwise_cons] at hsorted
    have hnew := hfresh pair List.mem_cons_self
    have hdigest := normalize_of_is_digest (hplain pair List.mem_cons_self)
    rw [String.ofList_toList] at hdigest
    have hstep : normalize_pair seen pair = .ok (seen.set pair.1 pair.2) := by
      unfold normalize_pair
      rw [if_neg (by simp [hnamed pair List.mem_cons_self]), hdigest,
        (seen.get?_eq_none_iff pair.1).mpr hnew]
      rfl
    obtain ⟨seen', hseen', hentries⟩ := ih (seen.set pair.1 pair.2)
      ⟨hsorted.2, fun other hother => hnamed other (List.mem_cons_of_mem _ hother),
        fun other hother => hplain other (List.mem_cons_of_mem _ hother)⟩
      (fun other hother hmem => by
        rcases (seen.mem_keys_set pair.1 other.1 pair.2).mp hmem with hsame | hold
        · exact (hsorted.1 other hother).ne' hsame
        · exact hfresh other (List.mem_cons_of_mem _ hother) hold)
    refine ⟨seen', ?_, ?_⟩
    · rw [List.foldlM_cons, hstep]
      exact hseen'
    · have hset : (seen.set pair.1 pair.2).entries = seen.entries ++ [(pair.1, pair.2)] :=
        Dict.setEntries_of_not_mem pair.1 pair.2 seen.entries hnew
      rw [hentries, hset, List.append_assoc, List.singleton_append]

theorem normalize_of_normal {inputs : List InputPair} (hnormal : Normal inputs) :
    _normalize_inputs inputs = .ok inputs := by
  obtain ⟨seen, hseen, hentries⟩ := normalize_pairs_of_normal inputs .empty hnormal
    (by simp [Dict.keys, Dict.empty])
  have hsorted : inputs.Pairwise fun first second => first.1 ≤ second.1 :=
    hnormal.sorted.imp fun hlt => hlt.le
  unfold _normalize_inputs
  rw [hseen]
  change Except.ok (seen.entries.insertionSort _) = _
  rw [hentries, Dict.empty, List.nil_append, hsorted.insertionSort_eq]

end Inputs

section Envelopes

variable (builtins : Builtins)

theorem map_text (values : List String) : (values.map Json.str).map builtins.text = values := by
  rw [List.map_map]
  exact List.map_id values

theorem input_pairs_map (inputs : List InputPair) :
    input_pairs builtins (.arr (inputs.map pair_json)) = .ok inputs := by
  change (inputs.map pair_json).mapM (input_pair builtins) = .ok inputs
  induction inputs with
  | nil => rfl
  | cons pair rest ih =>
    rw [List.map_cons, List.mapM_cons, ih]
    rfl

theorem named_text_str {text : String} (htext : is_blank text = false) :
    named_text (.str text) = .ok ⟨text, htext⟩ := by
  change dite _ _ _ = _
  rw [dif_pos htext]

theorem revision_eq (value : Option String) (hvalue : ∀ text ∈ value, is_blank text = false) :
    revision (some ((value.map Json.str).getD .null)) = .ok ⟨value, hvalue⟩ := by
  cases value with
  | none => rfl
  | some text =>
    change (named_text (.str text) >>= _) = _
    rw [named_text_str (hvalue text rfl)]
    rfl

theorem contract_of_guard_json {contract : ExecutionContract} {inputs : List InputPair}
    {guard : List (String × Json)} (hguard : guard_json contract inputs = .obj guard) :
    _contract_from_guard builtins guard = .ok contract := by
  have hcontract : item guard "contract" = .ok (_contract_identity contract) := by
    cases hguard
    rfl
  have hmodel : lookup guard "model_revision" =
      some ((contract.model_revision.map Json.str).getD .null) := by
    cases hguard
    rfl
  have hprompt : lookup guard "prompt_revision" =
      some ((contract.prompt_revision.map Json.str).getD .null) := by
    cases hguard
    rfl
  have hcompiler : item (contract_members contract) "compiler_revision" =
    .ok (.str contract.compiler_revision) := rfl
  have hparser : item (contract_members contract) "parser_revision" =
    .ok (.str contract.parser_revision) := rfl
  have hschema : item (contract_members contract) "schema_revision" =
    .ok (.str contract.schema_revision) := rfl
  have hpolicy : item (contract_members contract) "policy_revision" =
    .ok (.str contract.policy_revision) := rfl
  have hscope : item (contract_members contract) "permission_scope" =
    .ok (.arr (contract.permission_scope.sort.map .str)) := rfl
  have htenant : item (contract_members contract) "tenant_id" = .ok (.str contract.tenant_id) := rfl
  have hparams : lookup (contract_members contract) "params" =
    some (.obj contract.params.entries) := rfl
  have hread : params_of builtins (.obj contract.params.entries) = .ok contract.params := by
    change Except.ok (Dict.ofPairs contract.params.entries) = .ok contract.params
    rw [Dict.ofPairs_entries]
  have hgranted : ((contract.permission_scope.sort.map Json.str).map builtins.text).toFinset =
      contract.permission_scope := by
    rw [map_text, Finset.sort_toFinset]
  have hblank := contract.named
  simp only [List.forall_mem_cons] at hblank
  unfold _contract_from_guard
  simp only [hcontract, hmodel, hprompt, _contract_identity, hcompiler, hparser, hschema, hpolicy,
    hscope, htenant, hparams, iterate, Option.getD_some, bind, Except.bind, named_text_str hblank.1,
    named_text_str hblank.2.1, named_text_str hblank.2.2.1, named_text_str hblank.2.2.2.1,
    named_text_str hblank.2.2.2.2.1, hgranted]
  rw [dif_pos contract.granted]
  rw [revision_eq _ (contract.revised _ List.mem_cons_self),
    revision_eq _ (contract.revised _ (List.mem_cons_of_mem _ List.mem_cons_self)), hread]

end Envelopes

section Entries

variable {hasher : Hasher} {builtins : Builtins} {publication : Publication} {key : String}
  {envelope : List (String × Json)}

theorem canonical_json_eq_ok {value : Json} {text : String} (htext : canonical_json value = .ok text) :
    value.Printable ∧ text = String.ofList (Json.dumps value) := by
  unfold canonical_json at htext
  split at htext
  · rename_i hprintable
    exact ⟨hprintable, (Except.ok.inj htext).symm⟩
  · cases htext

theorem compute_action_key_eq_ok {inputs : List InputPair} {contract : ExecutionContract}
    (hkey : compute_action_key hasher inputs contract = .ok key) :
    ∃ normalized text, _normalize_inputs inputs = .ok normalized ∧
      _preimage_text normalized contract = .ok text ∧ text_digest hasher text = key := by
  unfold compute_action_key at hkey
  obtain ⟨normalized, hnormalized, hkey⟩ := of_bind_eq_ok hkey
  split at hkey
  · rename_i text htext
    exact ⟨normalized, text, hnormalized, htext, Except.ok.inj hkey⟩
  · cases hkey

-- What `put` goes on to write for a contract.
theorem prepared_eq_ok {contract : ExecutionContract}
    (hprepared : prepared hasher publication = .ok (key, envelope))
    (hcontract : publication.contract = some contract) :
    _validated_key publication.key = .ok key ∧
    ∃ normalized text, _normalize_inputs publication.inputs = .ok normalized ∧
      compute_action_key hasher normalized contract = .ok key ∧
      _preimage_text normalized contract = .ok text ∧ text_digest hasher text = key ∧
      envelope = envelope_of hasher publication key (.str text) (guard_json contract normalized) := by
  unfold prepared at hprepared
  obtain ⟨clean_key, hclean, hprepared⟩ := of_bind_eq_ok hprepared
  rw [hcontract] at hprepared
  obtain ⟨normalized, hnormalized, hprepared⟩ := of_bind_eq_ok hprepared
  obtain ⟨expected, hexpected, hprepared⟩ := of_bind_eq_ok hprepared
  split at hprepared
  · cases hprepared
  rename_i hsame
  obtain rfl := not_not.mp hsame
  obtain ⟨text, htext, hprepared⟩ := of_bind_eq_ok hprepared
  cases hprepared
  refine ⟨hclean, normalized, text, hnormalized, hexpected, htext, ?_, rfl⟩
  -- the key is worked out from inputs that are normal already
  obtain ⟨again, other, hagain, hother, hdigest⟩ := compute_action_key_eq_ok hexpected
  rw [normalize_of_normal (normal_of_normalize hnormalized)] at hagain
  cases hagain
  rw [htext] at hother
  cases hother
  exact hdigest

theorem verified_of_prepared {contract : ExecutionContract}
    (hprepared : prepared hasher publication = .ok (key, envelope))
    (hcontract : publication.contract = some contract) :
    verified hasher builtins key { artifact := publication.artifact, envelope } = .ok true := by
  obtain ⟨hclean, normalized, text, hnormalized, hkey, htext, hdigest, rfl⟩ :=
    prepared_eq_ok hprepared hcontract
  obtain ⟨guard, hguard⟩ : ∃ guard, guard_json contract normalized = .obj guard := ⟨_, rfl⟩
  have hinputs : item guard "inputs" = .ok (.arr (normalized.map pair_json)) := by
    cases hguard
    rfl
  have htaken : (do
      let stored_contract ← _contract_from_guard builtins guard
      let stored_inputs ← input_pairs builtins (← item guard "inputs")
      (.ok (stored_inputs, stored_contract) : Except StoreFault _)) =
      .ok (normalized, contract) := by
    rw [contract_of_guard_json builtins hguard, hinputs]
    change (input_pairs builtins (.arr (normalized.map pair_json)) >>= _) = _
    rw [input_pairs_map]
    rfl
  rw [hguard]
  unfold verified
  change (if key ≠ key then _ else
    if sha256_digest hasher publication.artifact ≠ sha256_digest hasher publication.artifact then _
    else if text_digest hasher text ≠ key then _ else _) = _
  rw [if_neg (not_not.mpr rfl), if_neg (not_not.mpr rfl), if_neg (not_not.mpr hdigest), htaken]
  change (compute_action_key hasher normalized contract >>= _) = _
  rw [hkey]
  change Except.ok (decide (key = key)) = _
  rw [decide_eq_true rfl]

theorem printable_arr {items : List Json} (hitems : ∀ item ∈ items, Json.Printable item) :
    Json.PrintableItems items := by
  induction items with
  | nil => trivial
  | cons item rest ih =>
    rw [List.forall_mem_cons] at hitems
    exact ⟨hitems.1, ih hitems.2⟩

theorem printable_preimage (inputs : List InputPair) {contract : ExecutionContract}
    (hparams : Json.PrintableMembers contract.params.entries) :
    (preimage inputs contract).Printable := by
  have hscopes : Json.PrintableItems (contract.permission_scope.sort.map Json.str) := by
    refine printable_arr fun item hitem => ?_
    obtain ⟨scope, -, rfl⟩ := List.mem_map.mp hitem
    trivial
  have hinputs : Json.PrintableItems (inputs.map pair_json) := by
    refine printable_arr fun item hitem => ?_
    obtain ⟨pair, -, rfl⟩ := List.mem_map.mp hitem
    exact ⟨trivial, trivial, trivial⟩
  have hnames : ((contract_members contract).map Prod.fst).Nodup := by
    change ["compiler_revision", "parser_revision", "schema_revision", "policy_revision",
      "permission_scope", "tenant_id", "params"].Nodup
    decide
  have hcontract : Json.Printable (_contract_identity contract) :=
    ⟨hnames, trivial, trivial, trivial, trivial, hscopes, trivial,
      ⟨contract.params.nodup, hparams⟩, trivial⟩
  refine ⟨?_, trivial, trivial, hcontract, hinputs, trivial⟩
  change ["version", "kind", "contract", "inputs"].Nodup
  decide

theorem preimage_text_of_normal {contract : ExecutionContract} {inputs : List InputPair}
    (hinputs : Normal inputs) (hparams : Json.PrintableMembers contract.params.entries) :
    _preimage_text inputs contract = .ok (String.ofList (Json.dumps (preimage inputs contract))) := by
  unfold _preimage_text canonical_json
  rw [normalize_of_normal hinputs]
  exact if_pos (printable_preimage inputs hparams)

theorem action_key_of_normal (hasher : Hasher) {contract : ExecutionContract}
    {inputs : List InputPair} (hinputs : Normal inputs)
    (hparams : Json.PrintableMembers contract.params.entries) :
    compute_action_key hasher inputs contract =
      .ok (text_digest hasher (String.ofList (Json.dumps (preimage inputs contract)))) := by
  unfold compute_action_key
  simp only [normalize_of_normal hinputs, bind, Except.bind, preimage_text_of_normal hinputs hparams]

-- `put` takes what is published under its own action key.
theorem exists_prepared (publication : Publication) {contract : ExecutionContract}
    (hcontract : publication.contract = some contract) (hinputs : Normal publication.inputs)
    (hkey : compute_action_key hasher publication.inputs contract = .ok publication.key)
    (hdigest : is_digest publication.key.toList = true) :
    ∃ envelope, prepared hasher publication = .ok (publication.key, envelope) := by
  obtain ⟨normalized, text, hnormalized, htext, -⟩ := compute_action_key_eq_ok hkey
  rw [normalize_of_normal hinputs] at hnormalized
  cases hnormalized
  have hclean : _validated_key publication.key = .ok publication.key := by
    have hself := cleaned_of_is_digest hdigest
    rw [String.ofList_toList] at hself
    unfold _validated_key
    rw [hself, if_pos hdigest, String.ofList_toList]
  refine ⟨envelope_of hasher publication publication.key (.str text)
    (guard_json contract publication.inputs), ?_⟩
  unfold prepared
  rw [hclean, hcontract]
  change (_normalize_inputs publication.inputs >>= _) = _
  rw [normalize_of_normal hinputs]
  change (compute_action_key hasher publication.inputs contract >>= _) = _
  rw [hkey]
  change (if publication.key ≠ publication.key then _ else _) = _
  rw [if_neg (not_not.mpr rfl), htext]
  rfl

end Entries

end KnowledgeCompiler.Reuse
