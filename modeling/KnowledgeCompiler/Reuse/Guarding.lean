import KnowledgeCompiler.Reuse.Publishing

namespace KnowledgeCompiler.Reuse

open Lib Method

section Soundness

variable {hasher : Hasher} {builtins : Builtins} {disk : String → Option ByteArray}
  {contract stored : ExecutionContract} {required_validations : List String} {entry : Entry}
  {decision : ReuseDecision} {key clean_key : String}

-- What the entry records of its build.
def Recorded (builtins : Builtins) (entry : Entry) (stored : ExecutionContract)
    (inputs : List InputPair) : Prop :=
  ∃ guard, lookup entry.envelope "guard" = some (.obj guard) ∧
    _contract_from_guard builtins guard = .ok stored ∧
    ∃ listed, lookup guard "inputs" = some listed ∧ input_pairs builtins listed = .ok inputs

def Passed (entry : Entry) (kind : String) : Prop :=
  ∃ recorded record, lookup entry.envelope "validations" = some (.obj recorded) ∧
    lookup recorded kind = some (.obj record) ∧ lookup record "status" = some (.str "passed")

theorem moved_eq_none (hmoved : moved builtins stored contract = none) :
    stored.policy_revision = contract.policy_revision ∧
    stored.permission_scope ⊆ contract.permission_scope ∧
    stored.model_revision = contract.model_revision ∧
    stored.prompt_revision = contract.prompt_revision := by
  unfold moved at hmoved
  dsimp only at hmoved
  split at hmoved
  · cases hmoved
  rename_i hpolicy
  split at hmoved
  · cases hmoved
  rename_i hscopes
  split at hmoved
  · cases hmoved
  rename_i hmodel
  split at hmoved
  · cases hmoved
  rename_i hprompt
  refine ⟨not_not.mp hpolicy, ?_, not_not.mp hmodel, not_not.mp hprompt⟩
  rw [← Finset.sdiff_eq_empty_iff_subset, Finset.eq_empty_iff_forall_notMem]
  intro scope hscope
  have hsorted := (Finset.mem_sort (· ≤ ·)).mpr hscope
  rw [not_not.mp hscopes] at hsorted
  cases hsorted

theorem stale_input_eq_none {pair : InputPair} (hstale : stale_input hasher disk pair = none) :
    _file_digest hasher disk pair.1 = some pair.2 := by
  unfold stale_input at hstale
  split at hstale
  · cases hstale
  rename_i current hcurrent
  split at hstale
  · cases hstale
  rename_i hsame
  rw [hcurrent, not_not.mp hsame]

theorem failed_validation_eq_none {recorded : List (String × Json)} {kind : String}
    (hfailed : failed_validation builtins recorded kind = none) :
    ∃ record, lookup recorded kind = some (.obj record) ∧
      lookup record "status" = some (.str "passed") := by
  unfold failed_validation at hfailed
  split at hfailed
  · rename_i record hrecord
    split at hfailed
    · rename_i hstatus
      exact ⟨record, hrecord, hstatus⟩
    · cases hfailed
  · cases hfailed

-- What the guard's own gates say about the entry that it read.
theorem judged_hit
    (hjudged : judged hasher builtins disk contract required_validations entry = .ok decision)
    (hhit : decision.hit = true) :
    decision.artifact = some entry.artifact ∧
    decision.receipt = lookup entry.envelope "receipt" ∧
    ∃ guard stored inputs, lookup entry.envelope "guard" = some (.obj guard) ∧
      _contract_from_guard builtins guard = .ok stored ∧
      input_pairs builtins ((lookup guard "inputs").getD (.arr [])) = .ok inputs ∧
      moved builtins stored contract = none ∧
      (∀ pair ∈ inputs, _file_digest hasher disk pair.1 = some pair.2) ∧
      ∀ kind ∈ required_validations, Passed entry kind := by
  unfold judged at hjudged
  split at hjudged
  · rename_i guard hguard
    split at hjudged
    · obtain ⟨stored, hstored, hjudged⟩ := of_bind_eq_ok hjudged
      split at hjudged
      · rename_i found hmoved
        cases hjudged
        -- a decision on what has moved is no hit
        unfold moved at hmoved
        dsimp only at hmoved
        split_ifs at hmoved <;> cases hmoved <;> cases hhit
      rename_i hmoved
      obtain ⟨inputs, hinputs, hjudged⟩ := of_bind_eq_ok hjudged
      split at hjudged
      · rename_i found hfound
        cases hjudged
        obtain ⟨pair, -, hstale⟩ := List.exists_of_findSome?_eq_some hfound
        unfold stale_input at hstale
        split at hstale
        · cases hstale
          cases hhit
        · split at hstale <;> cases hstale
          cases hhit
      rename_i hfresh
      split at hjudged
      · rename_i found hfound
        cases hjudged
        obtain ⟨kind, -, hfailed⟩ := List.exists_of_findSome?_eq_some hfound
        unfold failed_validation at hfailed
        split at hfailed
        · split at hfailed <;> cases hfailed
          cases hhit
        · cases hfailed
          cases hhit
      rename_i hpassed
      cases hjudged
      refine ⟨rfl, rfl, guard, stored, inputs, hguard, hstored, hinputs, hmoved, ?_, ?_⟩
      · intro pair hpair
        exact stale_input_eq_none (List.findSome?_eq_none_iff.mp hfresh pair hpair)
      · intro kind hkind
        obtain ⟨record, hrecord, hstatus⟩ :=
          failed_validation_eq_none (List.findSome?_eq_none_iff.mp hpassed kind hkind)
        unfold recorded_validations at hrecord
        split at hrecord
        · rename_i recorded hrecorded
          exact ⟨recorded, record, hrecorded, hrecord, hstatus⟩
        · cases hrecord
    · cases hjudged
      cases hhit
  · cases hjudged
    cases hhit

theorem verified_true (hverified : verified hasher builtins clean_key entry = .ok true) :
    ∃ stored inputs, Recorded builtins entry stored inputs ∧
      compute_action_key hasher inputs stored = .ok clean_key ∧
      lookup entry.envelope "artifact_sha256" =
        some (.str (sha256_digest hasher entry.artifact)) := by
  unfold verified at hverified
  dsimp only at hverified
  split at hverified
  · rename_i key artifact_sha256 preimage guard hkey hartifact hpreimage hguard
    split at hverified
    · cases hverified
    split at hverified
    · cases hverified
    rename_i hsame
    split at hverified
    · cases hverified
    split at hverified
    · cases hverified
    rename_i stored_inputs stored_contract htaken
    obtain ⟨stored, hstored, htaken⟩ := of_bind_eq_ok htaken
    obtain ⟨listed, hlisted, htaken⟩ := of_bind_eq_ok htaken
    obtain ⟨inputs, hinputs, htaken⟩ := of_bind_eq_ok htaken
    cases htaken
    obtain ⟨found, hfound, hverified⟩ := of_bind_eq_ok hverified
    have hclean : found = clean_key := by simpa using Except.ok.inj hverified
    refine ⟨stored_contract, stored_inputs, ⟨guard, hguard, hstored, listed, ?_, hinputs⟩,
      hclean ▸ hfound, ?_⟩
    · unfold item at hlisted
      split at hlisted
      · rename_i value hvalue
        rw [hvalue, Except.ok.inj hlisted]
      · cases hlisted
    · rw [hartifact, not_not.mp hsame]
  · cases hverified

-- The two contracts agree on all that enters the key.
structure SameIdentity (first second : ExecutionContract) : Prop where
  compiler_revision : first.compiler_revision = second.compiler_revision
  parser_revision : first.parser_revision = second.parser_revision
  schema_revision : first.schema_revision = second.schema_revision
  policy_revision : first.policy_revision = second.policy_revision
  permission_scope : first.permission_scope = second.permission_scope
  tenant_id : first.tenant_id = second.tenant_id
  params : Json.sortKeys (.obj first.params.entries) = Json.sortKeys (.obj second.params.entries)

theorem sortItems_str (values : List String) :
    Json.sortItems (values.map .str) = values.map .str := by
  induction values with
  | nil => rfl
  | cons value rest ih => simp [Json.sortItems, Json.sortKeys, ih]

theorem sameIdentity_of_sorted {first second : ExecutionContract} {inputs others : List InputPair}
    (hsorted : Json.sortKeys (preimage inputs first) = Json.sortKeys (preimage others second)) :
    SameIdentity first second := by
  simp only [preimage, _contract_identity, contract_members, Json.sortKeys, Json.sortMembers] at hsorted
  simp [List.insertionSort, List.orderedInsert, sortItems_str] at hsorted
  obtain ⟨⟨hcompiler, hparams, hparser, hscopes, hpolicy, hschema, htenant⟩, -⟩ := hsorted
  have hscopes := congrArg List.toFinset (List.map_injective_iff.mpr (fun _ _ => Json.str.inj) hscopes)
  simp only [Finset.sort_toFinset] at hscopes
  exact ⟨hcompiler, hparser, hschema, hpolicy, hscopes, htenant, congrArg Json.obj hparams⟩

theorem sameIdentity_of_text {first second : ExecutionContract} {inputs others : List InputPair}
    {text : String} (hfirst : _preimage_text inputs first = .ok text)
    (hsecond : _preimage_text others second = .ok text) : SameIdentity first second := by
  obtain ⟨_, -, hfirst⟩ := of_bind_eq_ok hfirst
  obtain ⟨_, -, hsecond⟩ := of_bind_eq_ok hsecond
  obtain ⟨hprintable, htext⟩ := canonical_json_eq_ok hfirst
  obtain ⟨hprintable', htext'⟩ := canonical_json_eq_ok hsecond
  have hdumps := congrArg String.toList (htext.symm.trans htext')
  rw [String.toList_ofList, String.toList_ofList] at hdumps
  exact sameIdentity_of_sorted (Json.dumps_inj hprintable hprintable' hdumps)

-- The hash takes the two keyed preimages, of these contracts with these inputs, to one digest only
-- if they are one text.
def Distinguished (hasher : Hasher) (inputs : List InputPair) (first : ExecutionContract)
    (others : List InputPair) (second : ExecutionContract) : Prop :=
  ∀ text other, _preimage_text inputs first = .ok text → _preimage_text others second = .ok other →
    text_digest hasher text = text_digest hasher other → text = other

theorem preimage_text_normalized {inputs normalized : List InputPair} (contract : ExecutionContract)
    (hnormalized : _normalize_inputs inputs = .ok normalized) :
    _preimage_text normalized contract = _preimage_text inputs contract := by
  unfold _preimage_text
  rw [hnormalized, normalize_of_normal (normal_of_normalize hnormalized)]

theorem distinguished_self (hasher : Hasher) (inputs : List InputPair) (contract : ExecutionContract) :
    Distinguished hasher inputs contract inputs contract := by
  intro text other htext hother _
  exact Except.ok.inj (htext.symm.trans hother)

theorem Recorded.unique {inputs others : List InputPair} {other : ExecutionContract}
    (hrecorded : Recorded builtins entry stored inputs) (hother : Recorded builtins entry other others) :
    stored = other ∧ inputs = others := by
  obtain ⟨guard, hguard, hstored, listed, hlisted, hinputs⟩ := hrecorded
  obtain ⟨guard', hguard', hstored', listed', hlisted', hinputs'⟩ := hother
  obtain rfl : guard = guard' := by simpa using hguard.symm.trans hguard'
  obtain rfl := Option.some.inj (hlisted.symm.trans hlisted')
  exact ⟨Except.ok.inj (hstored.symm.trans hstored'), Except.ok.inj (hinputs.symm.trans hinputs')⟩

theorem moved_eq_none_of (hpolicy : stored.policy_revision = contract.policy_revision)
    (hscopes : stored.permission_scope ⊆ contract.permission_scope)
    (hmodel : stored.model_revision = contract.model_revision)
    (hprompt : stored.prompt_revision = contract.prompt_revision) :
    moved builtins stored contract = none := by
  unfold moved
  dsimp only
  rw [if_neg (not_not.mpr hpolicy), Finset.sdiff_eq_empty_iff_subset.mpr hscopes, Finset.sort_empty,
    if_neg (not_not.mpr rfl), if_neg (not_not.mpr hmodel), if_neg (not_not.mpr hprompt)]

theorem entry_replaced (store : ActionKeyStore) (key : String) (artifact : ByteArray)
    (envelope : List (String × Json)) :
    ((store.replace_artifact key artifact).replace_envelope key envelope).entry key =
      some { artifact, envelope } := by
  simp [ActionKeyStore.entry, ActionKeyStore.replace_artifact, ActionKeyStore.replace_envelope, fetched]

theorem judged_of_recorded {inputs : List InputPair} (hrecorded : Recorded builtins entry stored inputs)
    (hmoved : moved builtins stored contract = none)
    (hfresh : ∀ pair ∈ inputs, _file_digest hasher disk pair.1 = some pair.2)
    (hpassed : ∀ kind ∈ required_validations, Passed entry kind) :
    judged hasher builtins disk contract required_validations entry = .ok {
      hit := true
      reason := none
      detail := "entry intact and every guard passed"
      artifact := some entry.artifact
      receipt := lookup entry.envelope "receipt" } := by
  obtain ⟨guard, hguard, hstored, listed, hlisted, hinputs⟩ := hrecorded
  have hstale : inputs.findSome? (stale_input hasher disk) = none := by
    rw [List.findSome?_eq_none_iff]
    intro pair hpair
    unfold stale_input
    rw [hfresh pair hpair]
    exact if_neg (not_not.mpr rfl)
  have hfailed : required_validations.findSome?
      (failed_validation builtins (recorded_validations entry)) = none := by
    rw [List.findSome?_eq_none_iff]
    intro kind hkind
    obtain ⟨recorded, record, hrecorded, hrecord, hstatus⟩ := hpassed kind hkind
    unfold failed_validation recorded_validations
    simp only [hrecorded, hrecord, hstatus]
  obtain ⟨identity, hidentity⟩ : ∃ identity, lookup guard "contract" = some (.obj identity) := by
    unfold _contract_from_guard item at hstored
    cases hfound : lookup guard "contract" with
    | none =>
      rw [hfound] at hstored
      cases hstored
    | some value =>
      rw [hfound] at hstored
      cases value with
      | obj identity => exact ⟨identity, rfl⟩
      | _ => cases hstored
  unfold judged
  simp only [hguard, hidentity, hstored, bind, Except.bind, hmoved, hlisted, Option.getD_some, hinputs,
    hstale, hfailed]

theorem guarded_of_verified {second : Entry}
    (hverified : verified hasher builtins clean_key second = .ok true) :
    guarded hasher builtins disk key clean_key contract required_validations (some entry)
      (some second) = judged hasher builtins disk contract required_validations entry := by
  simp only [guarded, verify_fetched, hverified, bind, Except.bind, if_true]

theorem entry_of_put {store store' : ActionKeyStore} {publication : Publication}
    {inputs : List InputPair} (builtins : Builtins) (hput : store.put hasher publication = .ok store')
    (hcontract : publication.contract = some stored)
    (hinputs : _normalize_inputs publication.inputs = .ok inputs) :
    ∃ key envelope, _validated_key publication.key = .ok key ∧
      store'.entry key = some ⟨publication.artifact, envelope⟩ ∧
      lookup envelope "receipt" = some (.obj publication.receipt) ∧
      lookup envelope "validations" = some (.obj publication.validations) ∧
      verified hasher builtins key ⟨publication.artifact, envelope⟩ = .ok true ∧
      Recorded builtins ⟨publication.artifact, envelope⟩ stored inputs := by
  obtain ⟨⟨key, envelope⟩, hprepared, hstored⟩ := of_bind_eq_ok hput
  cases hstored
  have hverified : verified hasher builtins key ⟨publication.artifact, envelope⟩ = .ok true :=
    verified_of_prepared hprepared hcontract
  obtain ⟨hclean, normalized, text, hnormalized, -, -, -, rfl⟩ := prepared_eq_ok hprepared hcontract
  cases hinputs.symm.trans hnormalized
  exact ⟨key, _, hclean, entry_replaced store key _ _, rfl, rfl, hverified,
    ⟨_, rfl, contract_of_guard_json builtins rfl, _, rfl, input_pairs_map builtins inputs⟩⟩

-- Neither the tenant nor the compiler, the parser, the schema or the parameters of the contract
-- asked for take part.
theorem reuse_guard_of_put {store store' : ActionKeyStore} {publication : Publication}
    {inputs : List InputPair} (hput : store.put hasher publication = .ok store')
    (hcontract : publication.contract = some stored)
    (hinputs : _normalize_inputs publication.inputs = .ok inputs)
    (hmoved : moved builtins stored contract = none)
    (hfresh : ∀ pair ∈ inputs, _file_digest hasher disk pair.1 = some pair.2)
    (hpassed : ∀ kind ∈ required_validations, ∃ record,
      lookup publication.validations kind = some (.obj record) ∧
      lookup record "status" = some (.str "passed")) :
    reuse_guard hasher builtins store' disk publication.key contract required_validations = .ok {
      hit := true
      reason := none
      detail := "entry intact and every guard passed"
      artifact := some publication.artifact
      receipt := some (.obj publication.receipt) } := by
  obtain ⟨key, envelope, hclean, hentry, hreceipt, hvalidations, hverified, hrecorded⟩ :=
    entry_of_put builtins hput hcontract hinputs
  have hpassed : ∀ kind ∈ required_validations, Passed ⟨publication.artifact, envelope⟩ kind := by
    intro kind hkind
    obtain ⟨record, hrecord, hstatus⟩ := hpassed kind hkind
    exact ⟨publication.validations, record, hvalidations, hrecord, hstatus⟩
  have hjudged := judged_of_recorded hrecorded hmoved hfresh hpassed
  rw [hreceipt] at hjudged
  unfold reuse_guard
  rw [hclean]
  change guarded hasher builtins disk _ key contract required_validations (store'.entry key) _ = _
  rw [hentry, guarded_of_verified hverified, hjudged]

-- What a hit says about the entry and the contract asked for. On the fields that enter the key
-- the two contracts agree only as far as the key is the one of the contract asked for.
theorem reuse_sound {store : ActionKeyStore}
    (hreuse : reuse_guard hasher builtins store disk key contract required_validations =
      .ok decision)
    (hhit : decision.hit = true) :
    ∃ clean_key entry stored inputs, _validated_key key = .ok clean_key ∧
      store.entry clean_key = some entry ∧ decision.artifact = some entry.artifact ∧
      lookup entry.envelope "artifact_sha256" =
        some (.str (sha256_digest hasher entry.artifact)) ∧
      Recorded builtins entry stored inputs ∧
      stored.policy_revision = contract.policy_revision ∧
      stored.permission_scope ⊆ contract.permission_scope ∧
      stored.model_revision = contract.model_revision ∧
      stored.prompt_revision = contract.prompt_revision ∧
      (∀ pair ∈ inputs, _file_digest hasher disk pair.1 = some pair.2) ∧
      (∀ kind ∈ required_validations, Passed entry kind) ∧
      compute_action_key hasher inputs stored = .ok clean_key ∧
      ∀ requested, compute_action_key hasher requested contract = .ok clean_key →
        Distinguished hasher inputs stored requested contract → SameIdentity stored contract := by
  unfold reuse_guard at hreuse
  obtain ⟨clean_key, hclean, hreuse⟩ := of_bind_eq_ok hreuse
  unfold guarded at hreuse
  split at hreuse
  · cases hreuse
    cases hhit
  rename_i entry hentry
  obtain ⟨intact, hintact, hreuse⟩ := of_bind_eq_ok hreuse
  cases intact with
  | false =>
    cases hreuse
    cases hhit
  | true =>
    rw [hentry] at hintact
    obtain ⟨stored, inputs, hrecorded, hkey, hdigest⟩ := verified_true hintact
    obtain ⟨hartifact, -, guard, stored', inputs', hguard, hstored, hinputs, hmoved, hfresh, hpassed⟩ :=
      judged_hit hreuse hhit
    -- the guard takes the same envelope apart a second time
    obtain ⟨guard', hguard', hstored', listed, hlisted, hinputs'⟩ := id hrecorded
    obtain rfl : guard = guard' := by simpa using hguard.symm.trans hguard'
    obtain rfl : stored = stored' := Except.ok.inj (hstored'.symm.trans hstored)
    rw [hlisted, Option.getD_some] at hinputs
    obtain rfl : inputs = inputs' := Except.ok.inj (hinputs'.symm.trans hinputs)
    obtain ⟨hpolicy, hscopes, hmodel, hprompt⟩ := moved_eq_none hmoved
    refine ⟨clean_key, entry, stored, inputs, hclean, hentry, hartifact, hdigest, hrecorded, hpolicy,
      hscopes, hmodel, hprompt, hfresh, hpassed, hkey, ?_⟩
    intro requested hrequested hdistinguished
    obtain ⟨_, text, hnormalized, htext, rfl⟩ := compute_action_key_eq_ok hkey
    obtain ⟨_, other, hnormalized', hother, hsame⟩ := compute_action_key_eq_ok hrequested
    rw [preimage_text_normalized stored hnormalized] at htext
    rw [preimage_text_normalized contract hnormalized'] at hother
    obtain rfl := hdistinguished text other htext hother hsame.symm
    exact sameIdentity_of_text htext hother

end Soundness

section Tenants

def tenant_contract (tenant_id : String) (htenant : is_blank tenant_id = false) :
    ExecutionContract where
  compiler_revision := "compiler-1"
  parser_revision := "parser-1"
  schema_revision := "schema-1"
  policy_revision := "policy-1"
  permission_scope := {"corpus:read"}
  tenant_id
  named := by
    simp only [List.forall_mem_cons, htenant]
    decide
  granted := ⟨Finset.singleton_nonempty _, by simp only [Finset.mem_singleton, forall_eq]; decide⟩
  revised := by simp

theorem tenant_contract_moved {builtins : Builtins} {first second : String}
    (hfirst : is_blank first = false) (hsecond : is_blank second = false) :
    moved builtins (tenant_contract first hfirst) (tenant_contract second hsecond) = none :=
  moved_eq_none_of rfl (Finset.Subset.refl _) rfl rfl

def first_contract : ExecutionContract := tenant_contract "tenant-1" (by decide)

def second_contract : ExecutionContract := tenant_contract "tenant-2" (by decide)

def first_key : String := text_digest sha256 (String.ofList (Json.dumps (preimage [] first_contract)))

def tenant_publication (artifact : ByteArray) (receipt : List (String × Json)) : Publication where
  key := first_key
  artifact
  receipt
  contract := some first_contract
  validations := [("numeric", .obj [("status", .str "failed")])]

def first_publication : Publication := tenant_publication "bundle".toUTF8 [("pages", .int 1)]

def plain_builtins : Builtins where
  str value := String.ofList (Json.dumps value)
  repr value := String.ofList (Json.dumps value)
  dict _ := none

theorem normal_nil : Normal [] := ⟨List.Pairwise.nil, by simp, by simp⟩

theorem first_key_eq : compute_action_key sha256 [] first_contract = .ok first_key :=
  action_key_of_normal sha256 normal_nil trivial

theorem exists_prepared_tenant (artifact : ByteArray) (receipt : List (String × Json)) :
    ∃ envelope, prepared sha256 (tenant_publication artifact receipt) = .ok (first_key, envelope) :=
  exists_prepared (tenant_publication artifact receipt) rfl normal_nil first_key_eq
    (is_digest_sha256 _)

theorem first_publication_put :
    ∃ store, ActionKeyStore.put sha256 {} first_publication = .ok store := by
  obtain ⟨envelope, henvelope⟩ := exists_prepared_tenant "bundle".toUTF8 [("pages", .int 1)]
  unfold ActionKeyStore.put first_publication
  rw [henvelope]
  exact ⟨_, rfl⟩

theorem first_contract_moved : moved plain_builtins first_contract first_contract = none :=
  tenant_contract_moved _ _

theorem second_contract_moved : moved plain_builtins first_contract second_contract = none :=
  tenant_contract_moved _ _

theorem first_publication_hit {store : ActionKeyStore} {contract : ExecutionContract}
    (hput : ActionKeyStore.put sha256 {} first_publication = .ok store)
    (hmoved : moved plain_builtins first_contract contract = none) :
    ∃ decision, reuse_guard sha256 plain_builtins store (fun _ => none) first_key contract [] =
        .ok decision ∧
      decision.hit = true ∧ decision.artifact = some first_publication.artifact := by
  have hkey : first_publication.key = first_key := rfl
  have hinputs : _normalize_inputs first_publication.inputs = .ok [] := normalize_of_normal normal_nil
  rw [← hkey]
  exact ⟨_, reuse_guard_of_put hput rfl hinputs hmoved (by simp) (by simp), rfl, rfl⟩

theorem first_contract_sound :
    ∃ store decision, ActionKeyStore.put sha256 {} first_publication = .ok store ∧
      reuse_guard sha256 plain_builtins store (fun _ => none) first_key first_contract [] =
        .ok decision ∧
      decision.hit = true ∧
      ∃ clean_key entry stored inputs, _validated_key first_key = .ok clean_key ∧
        store.entry clean_key = some entry ∧ Recorded plain_builtins entry stored inputs ∧
        compute_action_key sha256 [] first_contract = .ok clean_key ∧
        SameIdentity stored first_contract := by
  obtain ⟨store, hput⟩ := first_publication_put
  obtain ⟨decision, hreuse, hhit, -⟩ := first_publication_hit hput first_contract_moved
  obtain ⟨clean_key, entry, stored, inputs, hclean, hentry, -, -, hrecorded, -, -, -, -, -, -, hkey, hsame⟩ :=
    reuse_sound hreuse hhit
  obtain ⟨key, envelope, hvalidated, hfound, -, -, -, hput_recorded⟩ :=
    entry_of_put plain_builtins hput rfl (normalize_of_normal normal_nil)
  obtain rfl : clean_key = key := Except.ok.inj (hclean.symm.trans hvalidated)
  obtain rfl := Option.some.inj (hentry.symm.trans hfound)
  obtain ⟨rfl, rfl⟩ := hrecorded.unique hput_recorded
  exact ⟨store, decision, hput, hreuse, hhit, clean_key, _, _, _, hclean, hentry, hrecorded, hkey,
    hsame [] hkey (distinguished_self _ _ _)⟩

-- The second tenant asks with the first one's key; the failed validation is not asked for.
theorem other_tenant_hit :
    ∃ store decision clean_key entry, ActionKeyStore.put sha256 {} first_publication = .ok store ∧
      reuse_guard sha256 plain_builtins store (fun _ => none) first_key second_contract [] =
        .ok decision ∧
      decision.hit = true ∧ decision.artifact = some first_publication.artifact ∧
      _validated_key first_key = .ok clean_key ∧ store.entry clean_key = some entry ∧
      Recorded plain_builtins entry first_contract [] ∧
      first_contract.tenant_id ≠ second_contract.tenant_id ∧
      lookup entry.envelope "validations" =
        some (.obj [("numeric", .obj [("status", .str "failed")])]) := by
  obtain ⟨store, hput⟩ := first_publication_put
  obtain ⟨decision, hreuse, hhit, hartifact⟩ := first_publication_hit hput second_contract_moved
  obtain ⟨clean_key, envelope, hclean, hentry, -, hvalidations, -, hrecorded⟩ :=
    entry_of_put plain_builtins hput rfl (normalize_of_normal normal_nil)
  exact ⟨store, decision, clean_key, _, hput, hreuse, hhit, hartifact, hclean, hentry, hrecorded, by decide,
    hvalidations⟩

end Tenants

end KnowledgeCompiler.Reuse
