import KnowledgeCompiler.Exporters.VaultMerge
import KnowledgeCompiler.Lib.Method

namespace KnowledgeCompiler.Exporters

open Lib Posix Method

-- The collision key of a safe path.
def key_of (nfc casefold : String → String) (path : String) : String := casefold (nfc path)

-- Safe paths of which no two are one on a file system that folds case.
structure Vault (nfc casefold : String → String) where
  files : Dict String Bytes
  safe : ∀ path ∈ files.keys, safe_relative_path path = .ok path
  distinct : (files.keys.map (key_of nfc casefold)).Nodup

-- No blank at either end, which a model would strip.
def Trimmed (path : String) : Prop := Text.trim path = path

-- What `unicodedata.normalize` and `str.casefold` are relied on for: the dashes and digits of a
-- collision suffix stay as they are and compose with nothing beside them, and a blank comes from
-- blanks alone.
structure Foldings (nfc casefold : String → String) : Prop where
  nfc_extension : ∀ stem extension : String, (∀ c ∈ extension.toList.head?, c = '.') →
    nfc (stem ++ extension) = nfc stem ++ nfc extension
  nfc_suffix : ∀ stem digits extension : String, all_in "0123456789abcdef" digits.toList = true →
    (∀ c ∈ extension.toList.head?, c = '.') →
    nfc (stem ++ ("--" ++ digits) ++ extension) = nfc stem ++ ("--" ++ digits) ++ nfc extension
  casefold_append : ∀ first second : String,
    casefold (first ++ second) = casefold first ++ casefold second
  casefold_suffix : ∀ digits : String, all_in "0123456789abcdef" digits.toList = true →
    casefold ("--" ++ digits) = "--" ++ digits
  trimmed_of_key : ∀ first second : String, casefold (nfc first) = casefold (nfc second) →
    Trimmed first → Trimmed second

section Names

theorem split_name_append (name : Name) : (split_name name).1 ++ (split_name name).2 = name := by
  rw [split_name]
  split
  · exact List.take_append_drop _ name
  · exact List.append_nil name

theorem split_name_extension (name : Name) : ∀ c ∈ (split_name name).2.head?, c = '.' := by
  intro c hc
  rw [split_name] at hc
  split at hc
  · rename_i hdot
    have hsome : (name.reverse.dropWhile (· ≠ '.')).head? = some '.' := by
      cases hrest : name.reverse.dropWhile (· ≠ '.') with
      | nil =>
          have hnone := List.dropWhile_eq_nil_iff.mp hrest '.' (List.mem_reverse.mpr hdot.1)
          simp at hnone
      | cons first rest =>
          have hfirst := List.head?_dropWhile_not (· ≠ '.') name.reverse
          rw [hrest] at hfirst
          simpa using hfirst
    have hsplit := List.takeWhile_append_dropWhile (p := (· ≠ '.')) (l := name.reverse)
    generalize name.reverse.takeWhile (· ≠ '.') = tail at hsplit hdot hc
    generalize name.reverse.dropWhile (· ≠ '.') = rest at hsplit hsome
    obtain ⟨more, rfl⟩ : ∃ more, rest = '.' :: more := by
      cases rest with
      | nil => cases hsome
      | cons first more => exact ⟨more, by cases hsome; rfl⟩
    have hname : name = more.reverse ++ '.' :: tail.reverse := by
      rw [← List.reverse_reverse name, ← hsplit]
      simp
    have hlength : name.length - 1 - tail.length = more.reverse.length := by
      rw [hname]
      simp only [List.length_append, List.length_cons, List.length_reverse]
      omega
    rw [hlength, hname, List.drop_left] at hc
    cases hc
    rfl
  · cases hc

theorem split_name_ne_nil {name : Name} (hname : name ≠ []) : (split_name name).1 ≠ [] := by
  rw [split_name]
  split
  · rename_i hdot
    exact fun hnil => (List.take_eq_nil_iff.mp hnil).elim (fun hzero => by omega) hname
  · exact hname

theorem joined_last (front : List Name) (name more : Name) :
    joined (front ++ [name ++ more]) = joined (front ++ [name]) ++ more := by
  induction front with
  | nil => simp [joined]
  | cons first rest ih =>
      cases rest with
      | nil => simp [joined]
      | cons second others =>
          simp only [List.cons_append, joined_cons, List.append_assoc] at ih ⊢
          rw [ih]

theorem joined_ne_nil (front : List Name) {name : Name} (hname : name ≠ []) :
    joined (front ++ [name]) ≠ [] := by
  rw [← List.nil_append name, joined_last]
  exact List.append_ne_nil_of_right_ne_nil _ hname

-- What stands inside a text takes neither end away.
theorem trimmed_inside {front inner back : List Char} (hfront : front ≠ [])
    (hinner : ∀ c ∈ inner, Text.is_blank c = false)
    (htrimmed : Trimmed (String.ofList (front ++ back))) :
    Trimmed (String.ofList (front ++ inner ++ back)) := by
  unfold Trimmed at htrimmed ⊢
  rw [Text.trim_eq_iff, String.toList_ofList] at htrimmed ⊢
  rw [List.head?_append_of_ne_nil _ hfront] at htrimmed
  rw [List.append_assoc, List.head?_append_of_ne_nil _ hfront]
  refine ⟨htrimmed.1, fun c hc => ?_⟩
  by_cases hback : back = []
  · subst hback
    rw [List.append_nil] at hc htrimmed
    by_cases hnone : inner = []
    · rw [hnone, List.append_nil] at hc
      exact htrimmed.2 c hc
    · rw [List.getLast?_append_of_ne_nil _ hnone] at hc
      exact hinner c (List.mem_of_getLast? hc)
  · rw [List.getLast?_append_of_ne_nil _ (List.append_ne_nil_of_right_ne_nil _ hback),
      List.getLast?_append_of_ne_nil _ hback] at hc
    rw [List.getLast?_append_of_ne_nil _ hback] at htrimmed
    exact htrimmed.2 c hc

end Names

section Suffix

variable (hasher : Hasher)

def suffix_digits (seed : String) : List Char :=
  ((sha256_digest hasher (Json.utf8 seed.toList)).toList.drop 7).take 8

def suffixed (name : Name) (seed : String) : Name :=
  (split_name name).1 ++ (['-', '-'] ++ suffix_digits hasher seed ++ (split_name name).2)

variable {hasher}

theorem suffix_digits_hex (seed : String) :
    all_in "0123456789abcdef" (suffix_digits hasher seed) = true := by
  have hdrop : (sha256_digest hasher (Json.utf8 seed.toList)).toList.drop 7 =
      (hexdigest hasher (Json.utf8 seed.toList)).toList := by
    rw [sha256_digest, String.toList_append]
    exact List.drop_left' rfl
  rw [suffix_digits, hdrop, all_in, List.all_eq_true]
  intro c hc
  obtain ⟨d, hd, rfl⟩ := hasher.hex _ c (List.mem_of_mem_take hc)
  have hdigits : ∀ d < 16, decide (Nat.digitChar d ∈ "0123456789abcdef".toList) = true := by decide
  exact hdigits d hd

theorem mem_suffixed {name : Name} {seed : String} {c : Char} (hc : c ∈ suffixed hasher name seed) :
    c ∈ name ∨ c = '-' ∨ c ∈ "0123456789abcdef".toList := by
  rw [← split_name_append name]
  rcases List.mem_append.mp hc with hstem | hc
  · exact .inl (List.mem_append_left _ hstem)
  rcases List.mem_append.mp hc with hc | hextension
  · rcases List.mem_append.mp hc with hdash | hdigit
    · exact .inr (.inl (by simpa using hdash))
    · have hhex := List.all_eq_true.mp (suffix_digits_hex seed) c hdigit
      exact .inr (.inr (of_decide_eq_true hhex))
  · exact .inl (List.mem_append_right _ hextension)

theorem notMem_suffixed {name : Name} {seed : String} {c : Char} (hname : c ∉ name) (hdash : c ≠ '-')
    (hdigit : c ∉ "0123456789abcdef".toList) : c ∉ suffixed hasher name seed := fun hc =>
  (mem_suffixed hc).elim hname (fun hother => hother.elim hdash hdigit)

theorem safe_suffixed {front : List Name} {name : Name} (hsafe : SafeNames (front ++ [name]))
    (seed : String) : SafeNames (front ++ [suffixed hasher name seed]) := by
  have hdash : '-' ∈ suffixed hasher name seed :=
    List.mem_append_right _ (List.mem_append_left _ List.mem_cons_self)
  have hother : ∀ text : Name, '-' ∉ text → suffixed hasher name seed ≠ text := by
    rintro text hnone rfl
    exact hnone hdash
  obtain ⟨-, -, -, hslash, hback⟩ := hsafe.plain name (List.mem_append_right _ List.mem_cons_self)
  refine ⟨by simp, ?_, ?_⟩
  · intro found hfound
    rcases List.mem_append.mp hfound with hfront | hlast
    · exact hsafe.plain found (List.mem_append_left _ hfront)
    · cases List.mem_singleton.mp hlast
      exact ⟨hother _ (by decide), hother _ (by decide), hother _ (by decide),
        notMem_suffixed hslash (by decide) (by decide), notMem_suffixed hback (by decide) (by decide)⟩
  · intro found hfound
    cases front with
    | nil =>
        cases hfound
        exact notMem_suffixed (hsafe.no_colon name rfl) (by decide) (by decide)
    | cons first rest => exact hsafe.no_colon found hfound

theorem with_collision_suffix_eq {front : List Name} {name : Name}
    (hsafe : SafeNames (front ++ [name])) (seed : String) :
    with_collision_suffix hasher (String.ofList (joined (front ++ [name]))) seed =
      .ok (String.ofList (joined (front ++ [suffixed hasher name seed]))) := by
  rw [with_collision_suffix, safe_path, safe_joined hsafe]
  dsimp only [Except.mapError, bind, Except.bind]
  rw [String.toList_ofList, parts_joined hsafe.names_plain, List.dropLast_concat,
    List.getLastD_concat]
  simp only [suffixed, suffix_digits, List.append_assoc]

-- A name with a suffix is safe where the name was, its key is longer, and no blank comes to an end.
theorem exists_suffixed {nfc casefold : String → String} (hfoldings : Foldings nfc casefold)
    {path : String} (hsafe : safe_relative_path path = .ok path) (seed : String) :
    ∃ renamed, with_collision_suffix hasher path seed = .ok renamed ∧
      safe_relative_path renamed = .ok renamed ∧
      (key_of nfc casefold path).length < (key_of nfc casefold renamed).length ∧
      (Trimmed path → Trimmed renamed) := by
  obtain ⟨names, hnames, rfl⟩ := exists_names hsafe
  obtain ⟨front, name, rfl⟩ := (List.eq_nil_or_concat' names).resolve_left hnames.nonempty
  refine ⟨_, with_collision_suffix_eq hnames seed, safe_joined (safe_suffixed hnames seed), ?_⟩
  have hdigits := @suffix_digits_hex hasher seed
  have hextension := split_name_extension name
  have hname := split_name_append name
  have hstem := split_name_ne_nil (hnames.plain name (List.mem_append_right _ List.mem_cons_self)).1
  unfold suffixed
  generalize suffix_digits hasher seed = digits at hdigits
  generalize (split_name name).1 = stem at hname hstem
  generalize (split_name name).2 = extension at hextension hname
  subst hname
  have hpath : String.ofList (joined (front ++ [stem ++ extension])) =
      String.ofList (joined (front ++ [stem])) ++ String.ofList extension := by
    rw [joined_last, String.ofList_append]
  have hrenamed : String.ofList (joined (front ++ [stem ++ (['-', '-'] ++ digits ++ extension)])) =
      String.ofList (joined (front ++ [stem])) ++ ("--" ++ String.ofList digits) ++
        String.ofList extension := by
    rw [joined_last, String.ofList_append, String.ofList_append, String.ofList_append]
    simp [String.append_assoc]
  refine ⟨?_, fun htrimmed => ?_⟩
  swap
  · have hinner : ∀ c ∈ ['-', '-'] ++ digits, Text.is_blank c = false := by
      have hplain : ("-" ++ "0123456789abcdef").toList.all (fun c => !Text.is_blank c) = true := by decide
      intro c hc
      have hmem : c ∈ ("-" ++ "0123456789abcdef").toList := by
        rcases List.mem_append.mp hc with hdash | hdigit
        · simp_all
        · exact List.mem_append_right ['-'] (of_decide_eq_true (List.all_eq_true.mp hdigits c hdigit))
      simpa using List.all_eq_true.mp hplain c hmem
    rw [joined_last] at htrimmed
    rw [joined_last, ← List.append_assoc]
    exact trimmed_inside (joined_ne_nil front hstem) hinner htrimmed
  rw [key_of, key_of, hpath, hrenamed, hfoldings.nfc_extension _ _ (by simpa using hextension),
    hfoldings.nfc_suffix _ _ _ (by simpa using hdigits) (by simpa using hextension),
    hfoldings.casefold_append, hfoldings.casefold_append, hfoldings.casefold_append,
    hfoldings.casefold_suffix _ (by simpa using hdigits)]
  simp only [String.length_append]
  have hdashes : "--".length = 2 := rfl
  omega

end Suffix

section Sections

variable {hasher : Hasher}

theorem utf8_decode {content : Bytes} {text : List Char} (htext : decode content = some text) :
    Json.utf8 text = content := by
  rw [Json.utf8, Utf8.encode_of_decode htext]

theorem utf8_append (first second : List Char) :
    Json.utf8 (first ++ second) = Json.utf8 first ++ Json.utf8 second := by
  rw [Json.utf8, Utf8.encode_append, ByteArray.data_append, Array.toList_append]
  rfl

theorem managed_section_spans {content : Bytes} {managed : ManagedSection}
    (hsection : _managed_section hasher content = some managed) :
    decode content = some managed.text ∧ managed.start ≤ managed.stop := by
  unfold _managed_section at hsection
  split at hsection
  · cases hsection
  rename_i text htext
  split at hsection
  · rename_i start declared_hash close hstarts hends
    dsimp only at hsection
    split at hsection
    · cases hsection
    · cases hsection
      refine ⟨htext, ?_⟩
      dsimp only
      split <;> omega
  · cases hsection

theorem managed_section_split {content : Bytes} {managed : ManagedSection}
    (hsection : _managed_section hasher content = some managed) :
    content = Json.utf8 (managed.text.take managed.start) ++ Json.utf8 managed.slice ++
      Json.utf8 (managed.text.drop managed.stop) := by
  obtain ⟨htext, hspan⟩ := managed_section_spans hsection
  have hwhole : managed.text =
      managed.text.take managed.start ++ managed.slice ++ managed.text.drop managed.stop := by
    have hfirst : (managed.text.take managed.stop).take managed.start =
        managed.text.take managed.start := by
      rw [List.take_take, min_eq_left hspan]
    rw [ManagedSection.slice, ← hfirst, List.take_append_drop, List.take_append_drop]
  rw [← utf8_append, ← utf8_append, ← hwhole]
  exact (utf8_decode htext).symm

-- Both sections match the hashes that they declare, and what stands outside stays.
def SectionUpdated (hasher : Hasher) (old content new : Bytes) : Prop :=
  ∃ kept given : ManagedSection,
    _managed_section hasher old = some kept ∧ kept.is_valid = true ∧
    _managed_section hasher content = some given ∧ given.is_valid = true ∧
    ∃ before after : Bytes, old = before ++ Json.utf8 kept.slice ++ after ∧
      new = before ++ Json.utf8 given.slice ++ after

end Sections

section Outcome

variable (hasher : Hasher) (nfc casefold : String → String) (policy : MergePolicy)

-- What a file that was there may become.
inductive Changed (incoming : Dict String Bytes) (path : String) (old : Bytes) : Bytes → Prop
  | unchanged : Changed incoming path old old
  | replaced (given : String) (content : Bytes) (hpolicy : policy = .REPLACE_SAME_SOURCE)
      (hgiven : incoming.get? given = some content)
      (hkey : key_of nfc casefold given = key_of nfc casefold path)
      (hsource : (_source_hash old).isSome = true ∧ _source_hash old = _source_hash content) :
      Changed incoming path old content
  | updated (given : String) (content new : Bytes) (hpolicy : policy = .UPDATE_MANAGED)
      (hgiven : incoming.get? given = some content)
      (hkey : key_of nfc casefold given = key_of nfc casefold path)
      (hupdated : SectionUpdated hasher old content new) : Changed incoming path old new

-- Where a file that was given is found.
inductive Arrived (files : Dict String Bytes) (conflicts : List VaultConflict) (path : String)
    (content : Bytes) : Prop
  | found (place : String) (hkey : key_of nfc casefold place = key_of nfc casefold path)
      (hfile : files.get? place = some content)
  | renamed (conflict : VaultConflict) (place : String) (hpolicy : policy = .RENAME_INCOMING)
      (hlisted : conflict ∈ conflicts) (hincoming : conflict.incoming_path = path)
      (hresolved : conflict.resolved_path = some place) (hfile : files.get? place = some content)
  | merged (conflict : VaultConflict) (place : String) (old new : Bytes)
      (hpolicy : policy = .UPDATE_MANAGED) (hlisted : conflict ∈ conflicts)
      (hincoming : conflict.incoming_path = path) (hresolved : conflict.resolved_path = some place)
      (hkey : key_of nfc casefold place = key_of nfc casefold path)
      (hupdated : SectionUpdated hasher old content new) (hfile : files.get? place = some new)
  | listed (conflict : VaultConflict) (hlisted : conflict ∈ conflicts)
      (hincoming : conflict.incoming_path = path)
      (hresolution : conflict.resolution = none ∨
        policy = .KEEP_EXISTING ∧ conflict.resolution = some "kept_existing")

structure Faithful (existing incoming : Dict String Bytes) (plan : VaultMergePlan) : Prop where
  kept : ∀ path old, existing.get? path = some old → ∃ new, plan.files.get? path = some new ∧
    Changed hasher nfc casefold policy incoming path old new
  arrived : ∀ path content, incoming.get? path = some content →
    Arrived hasher nfc casefold policy plan.files plan.conflicts path content
  unresolved : ∀ conflict ∈ plan.conflicts, conflict.resolution = none → plan.safe_to_apply = false

end Outcome

section Step

variable {hasher : Hasher} {nfc casefold : String → String} {policy : MergePolicy}

-- The index names each file that has been merged, under its key.
def Indexed (nfc casefold : String → String) (merging : Merging) : Prop :=
  ∀ key place, merging.key_to_path.get? key = some place ↔
    place ∈ merging.merged.keys ∧ key_of nfc casefold place = key

-- What the merge of one file comes to.
inductive Placed (hasher : Hasher) (nfc casefold : String → String) (policy : MergePolicy)
    (merging : Merging) (path : String) (content : Bytes) : Merging → Prop
  | added (hfree : merging.key_to_path.get? (key_of nfc casefold path) = none) :
      Placed hasher nfc casefold policy merging path content
        ((merging.stored path content).indexed (key_of nfc casefold path) path)
  | same (place : String)
      (htaken : merging.key_to_path.get? (key_of nfc casefold path) = some place)
      (hfile : merging.merged.get? place = some content) :
      Placed hasher nfc casefold policy merging path content merging
  | listed (place : String) (conflict : VaultConflict)
      (htaken : merging.key_to_path.get? (key_of nfc casefold path) = some place)
      (hincoming : conflict.incoming_path = path)
      (hresolution : conflict.resolution = none ∨
        policy = .KEEP_EXISTING ∧ conflict.resolution = some "kept_existing") :
      Placed hasher nfc casefold policy merging path content (merging.listed conflict)
  | updated (place : String) (old new : Bytes) (conflict : VaultConflict)
      (hpolicy : policy = .UPDATE_MANAGED)
      (htaken : merging.key_to_path.get? (key_of nfc casefold path) = some place)
      (hfile : merging.merged.get? place = some old)
      (hupdated : SectionUpdated hasher old content new)
      (hincoming : conflict.incoming_path = path) (hresolved : conflict.resolved_path = some place) :
      Placed hasher nfc casefold policy merging path content
        ((merging.stored place new).listed conflict)
  | renamed (place : String) (conflict : VaultConflict) (hpolicy : policy = .RENAME_INCOMING)
      (hfree : merging.key_to_path.get? (key_of nfc casefold place) = none)
      (htrimmed : Trimmed path → Trimmed place)
      (hincoming : conflict.incoming_path = path) (hresolved : conflict.resolved_path = some place) :
      Placed hasher nfc casefold policy merging path content
        (((merging.stored place content).indexed (key_of nfc casefold place) place).listed conflict)
  | replaced (place : String) (old : Bytes) (conflict : VaultConflict)
      (hpolicy : policy = .REPLACE_SAME_SOURCE)
      (htaken : merging.key_to_path.get? (key_of nfc casefold path) = some place)
      (hfile : merging.merged.get? place = some old)
      (hsource : (_source_hash old).isSome = true ∧ _source_hash old = _source_hash content) :
      Placed hasher nfc casefold policy merging path content
        ((merging.stored place content).listed conflict)

theorem collision_key_eq {path : String} (hsafe : safe_relative_path path = .ok path) :
    collision_key nfc casefold path = .ok (key_of nfc casefold path) := by
  rw [collision_key, safe_path, hsafe]
  rfl

theorem free_name_spec (hfoldings : Foldings nfc casefold) {key_to_path : Dict String String}
    {fuel : Nat} {path key place : String} (hsafe : safe_relative_path path = .ok path)
    (hname : free_name hasher nfc casefold key_to_path fuel path = .ok (key, place)) :
    key = key_of nfc casefold place ∧ key_to_path.get? key = none ∧ (Trimmed path → Trimmed place) := by
  induction fuel generalizing path with
  | zero => cases hname
  | succ fuel ih =>
      rw [free_name, collision_key_eq hsafe] at hname
      dsimp only [bind, Except.bind] at hname
      split at hname
      · obtain ⟨longer, hlonger, hsafe, -, htrimmed⟩ :=
          @exists_suffixed hasher _ _ hfoldings _ hsafe path
        rw [hlonger] at hname
        obtain ⟨hkey, hfree, hplace⟩ := ih hsafe hname
        exact ⟨hkey, hfree, fun hpath => hplace (htrimmed hpath)⟩
      · rename_i hfree
        cases hname
        exact ⟨rfl, (key_to_path.get?_eq_none_iff _).mpr hfree, id⟩

theorem length_filter_longer {keys : List String} {taken : String} {bound : Nat}
    (htaken : taken ∈ keys) (hbound : taken.length < bound) :
    (keys.filter (fun key => bound ≤ key.length)).length <
      (keys.filter (fun key => taken.length ≤ key.length)).length := by
  have hfilter : keys.filter (fun key => bound ≤ key.length) =
      (keys.filter (fun key => taken.length ≤ key.length)).filter (fun key => bound ≤ key.length) := by
    rw [List.filter_filter]
    refine List.filter_congr fun key _ => ?_
    by_cases hkey : bound ≤ key.length
    · simp [hkey, hbound.le.trans hkey]
    · simp [hkey]
  rw [hfilter]
  refine List.length_filter_lt_length_iff_exists.mpr ⟨taken, ?_, ?_⟩
  · exact List.mem_filter.mpr ⟨htaken, decide_eq_true le_rfl⟩
  · simpa using hbound

theorem exists_free_name (hfoldings : Foldings nfc casefold) {key_to_path : Dict String String}
    {fuel : Nat} {path : String} (hsafe : safe_relative_path path = .ok path)
    (hfuel : (key_to_path.keys.filter (fun key =>
      (key_of nfc casefold path).length ≤ key.length)).length < fuel) :
    ∃ found, free_name hasher nfc casefold key_to_path fuel path = .ok found := by
  induction fuel generalizing path with
  | zero => exact absurd hfuel (Nat.not_lt_zero _)
  | succ fuel ih =>
      rw [free_name, collision_key_eq hsafe]
      dsimp only [bind, Except.bind]
      split
      · rename_i htaken
        obtain ⟨longer, hlonger, hsafe, hlength, -⟩ :=
          @exists_suffixed hasher _ _ hfoldings _ hsafe path
        rw [hlonger]
        exact ih hsafe ((length_filter_longer htaken hlength).trans_le (Nat.le_of_lt_succ hfuel))
      · exact ⟨_, rfl⟩

theorem Indexed.get?_merged {merging : Merging} (hindexed : Indexed nfc casefold merging)
    {key place : String} (htaken : merging.key_to_path.get? key = some place) :
    ∃ content, merging.merged.get? place = some content :=
  (merging.merged.mem_keys_iff place).mp ((hindexed key place).mp htaken).1

theorem placed_update {merging : Merging} {path place : String} {old content : Bytes}
    (htaken : merging.key_to_path.get? (key_of nfc casefold path) = some place)
    (hfile : merging.merged.get? place = some old) :
    Placed hasher nfc casefold .UPDATE_MANAGED merging path content
      (update_managed hasher merging place path old content) := by
  unfold update_managed
  dsimp only
  split
  · exact .listed place _ htaken rfl (.inl rfl)
  rename_i given hgiven
  split
  · exact .listed place _ htaken rfl (.inl rfl)
  rename_i hgiven_valid
  split
  · exact .listed place _ htaken rfl (.inl rfl)
  rename_i kept hkept
  split
  · exact .listed place _ htaken rfl (.inl rfl)
  rename_i hkept_valid
  rw [Bool.not_eq_false] at hgiven_valid hkept_valid
  refine .updated place old _ _ rfl htaken hfile ?_ rfl rfl
  refine ⟨kept, given, hkept, hkept_valid, hgiven, hgiven_valid, _, _, managed_section_split hkept, ?_⟩
  rw [utf8_append, utf8_append]

theorem placed_replace {merging : Merging} {path place : String} {old content : Bytes}
    (htaken : merging.key_to_path.get? (key_of nfc casefold path) = some place)
    (hfile : merging.merged.get? place = some old) :
    Placed hasher nfc casefold .REPLACE_SAME_SOURCE merging path content
      (replace_same_source merging place path old content) := by
  unfold replace_same_source
  split
  · rename_i hsource
    exact .replaced place old _ rfl htaken hfile hsource
  · exact .listed place _ htaken rfl (.inl rfl)

theorem placed_rename (hfoldings : Foldings nfc casefold) {merging next : Merging}
    {path place : String} {content : Bytes} {fuel : Nat} (hsafe : safe_relative_path path = .ok path)
    (hnext : rename_incoming hasher nfc casefold fuel merging place path content = .ok next) :
    Placed hasher nfc casefold .RENAME_INCOMING merging path content next := by
  obtain ⟨first, hfirst, hsafe, -, htrimmed⟩ :=
    @exists_suffixed hasher _ _ hfoldings _ hsafe (sha256_digest hasher content)
  rw [rename_incoming, hfirst] at hnext
  obtain ⟨_, ⟨⟩, hnext⟩ := of_bind_eq_ok hnext
  obtain ⟨⟨key, renamed⟩, hname, hnext⟩ := of_bind_eq_ok hnext
  obtain ⟨rfl, hfree, hplace⟩ := free_name_spec hfoldings hsafe hname
  cases hnext
  exact .renamed renamed _ rfl hfree (fun hpath => hplace (htrimmed hpath)) rfl rfl

theorem placed_of_merge (hfoldings : Foldings nfc casefold) {merging next : Merging}
    {entry : String × Bytes} {fuel : Nat} (hindexed : Indexed nfc casefold merging)
    (hsafe : safe_relative_path entry.1 = .ok entry.1)
    (hnext : merge_file hasher nfc casefold policy fuel merging entry = .ok next) :
    Placed hasher nfc casefold policy merging entry.1 entry.2 next := by
  rw [merge_file, safe_path, hsafe] at hnext
  dsimp only [Except.mapError, bind, Except.bind] at hnext
  rw [collision_key_eq hsafe] at hnext
  dsimp only at hnext
  split at hnext
  · rename_i hfree
    cases hnext
    exact .added hfree
  rename_i place htaken
  obtain ⟨old, hfile⟩ := hindexed.get?_merged htaken
  rw [hfile, Option.getD_some] at hnext
  split at hnext
  · rename_i hsame
    cases hnext
    exact .same place htaken (hsame ▸ hfile)
  split at hnext
  · cases hnext
    exact placed_update htaken hfile
  · cases hnext
    exact .listed place _ htaken rfl (.inr ⟨rfl, rfl⟩)
  · exact placed_rename hfoldings hsafe hnext
  · cases hnext
    exact placed_replace htaken hfile
  · cases hnext
    exact .listed place _ htaken rfl (.inl rfl)

theorem exists_merged (hfoldings : Foldings nfc casefold) {merging : Merging}
    {entry : String × Bytes} {fuel : Nat} (hsafe : safe_relative_path entry.1 = .ok entry.1)
    (hfuel : merging.key_to_path.keys.length < fuel) :
    ∃ next, merge_file hasher nfc casefold policy fuel merging entry = .ok next := by
  rw [merge_file, safe_path, hsafe]
  dsimp only [Except.mapError, bind, Except.bind]
  rw [collision_key_eq hsafe]
  dsimp only
  split
  · exact ⟨_, rfl⟩
  rename_i place htaken
  split
  · exact ⟨_, rfl⟩
  split
  · exact ⟨_, rfl⟩
  · exact ⟨_, rfl⟩
  · obtain ⟨first, hfirst, hsafe, -⟩ :=
      @exists_suffixed hasher _ _ hfoldings _ hsafe (sha256_digest hasher entry.2)
    obtain ⟨found, hfound⟩ := @exists_free_name hasher _ _ hfoldings _ _ _ hsafe
      ((List.length_filter_le _ merging.key_to_path.keys).trans_lt hfuel)
    rw [rename_incoming, hfirst]
    dsimp only [bind, Except.bind]
    rw [hfound]
    exact ⟨_, rfl⟩
  · exact ⟨_, rfl⟩
  · exact ⟨_, rfl⟩

theorem Indexed.add {merging : Merging} {place : String} {content : Bytes}
    (hindexed : Indexed nfc casefold merging)
    (hfree : merging.key_to_path.get? (key_of nfc casefold place) = none) :
    Indexed nfc casefold ((merging.stored place content).indexed (key_of nfc casefold place) place) := by
  intro key other
  rw [Merging.indexed, Dict.get?_set]
  change _ ↔ other ∈ (merging.merged.set place content).keys ∧ _
  rw [Dict.mem_keys_set]
  split
  · rename_i hkey
    constructor
    · rintro ⟨⟩
      exact ⟨.inl rfl, hkey.symm⟩
    · rintro ⟨rfl | hother, hsame⟩
      · rfl
      · have htaken := (hindexed _ other).mpr ⟨hother, hsame.trans hkey⟩
        rw [hfree] at htaken
        cases htaken
  · rename_i hkey
    change merging.key_to_path.get? key = _ ↔ _
    rw [hindexed]
    refine and_congr_left fun hsame => (or_iff_right ?_).symm
    rintro rfl
    exact hkey hsame.symm

theorem Indexed.store {merging : Merging} {key place : String} (content : Bytes)
    (hindexed : Indexed nfc casefold merging)
    (htaken : merging.key_to_path.get? key = some place) :
    Indexed nfc casefold (merging.stored place content) := by
  intro other found
  change merging.key_to_path.get? other = _ ↔ found ∈ (merging.merged.set place content).keys ∧ _
  rw [hindexed, Dict.mem_keys_set]
  refine and_congr_left fun _ => (or_iff_right_of_imp ?_).symm
  rintro rfl
  exact ((hindexed _ _).mp htaken).1

theorem Placed.indexed {merging next : Merging} {path : String} {content : Bytes}
    (hplaced : Placed hasher nfc casefold policy merging path content next)
    (hindexed : Indexed nfc casefold merging) : Indexed nfc casefold next := by
  cases hplaced with
  | added hfree => exact hindexed.add hfree
  | same place htaken hfile => exact hindexed
  | listed place conflict htaken hincoming hresolution => exact hindexed
  | updated place old new conflict hpolicy htaken => exact hindexed.store new htaken
  | renamed place conflict hpolicy hfree => exact hindexed.add hfree
  | replaced place old conflict hpolicy htaken => exact hindexed.store content htaken

theorem Placed.conflicts {merging next : Merging} {path : String} {content : Bytes}
    (hplaced : Placed hasher nfc casefold policy merging path content next) :
    merging.conflicts ⊆ next.conflicts := by
  cases hplaced with
  | added => exact List.Subset.refl _
  | same => exact List.Subset.refl _
  | listed => exact List.subset_append_left _ _
  | updated => exact List.subset_append_left _ _
  | renamed => exact List.subset_append_left _ _
  | replaced => exact List.subset_append_left _ _

theorem Placed.length_keys {merging next : Merging} {path : String} {content : Bytes}
    (hplaced : Placed hasher nfc casefold policy merging path content next) :
    next.key_to_path.keys.length ≤ merging.key_to_path.keys.length + 1 := by
  have hadd : ∀ key place, (merging.key_to_path.get? key = none) →
      (merging.key_to_path.set key place).keys.length ≤ merging.key_to_path.keys.length + 1 := by
    intro key place hfree
    rw [Dict.keys_set_of_not_mem _ _ ((Dict.get?_eq_none_iff _ _).mp hfree), List.length_append]
    exact le_rfl
  cases hplaced with
  | added hfree => exact hadd _ _ hfree
  | same => exact Nat.le_succ _
  | listed => exact Nat.le_succ _
  | updated => exact Nat.le_succ _
  | renamed place conflict hpolicy hfree => exact hadd _ _ hfree
  | replaced => exact Nat.le_succ _

theorem Placed.trimmed {merging next : Merging} {path : String} {content : Bytes}
    (hplaced : Placed hasher nfc casefold policy merging path content next)
    (hindexed : Indexed nfc casefold merging) (hpath : Trimmed path)
    (hkeys : ∀ place ∈ merging.merged.keys, Trimmed place) :
    ∀ place ∈ next.merged.keys, Trimmed place := by
  have hset : ∀ (place : String) (new : Bytes), Trimmed place →
      ∀ other ∈ (merging.merged.set place new).keys, Trimmed other := by
    intro place new hplace other hother
    rcases (Dict.mem_keys_set _ _ _ _).mp hother with rfl | hother
    · exact hplace
    · exact hkeys other hother
  have htaken : ∀ place new, merging.key_to_path.get? (key_of nfc casefold path) = some place →
      ∀ other ∈ (merging.merged.set place new).keys, Trimmed other := fun place new htaken =>
    hset place new (hkeys place ((hindexed _ place).mp htaken).1)
  cases hplaced with
  | added hfree => exact hset path content hpath
  | same => exact hkeys
  | listed => exact hkeys
  | updated place old new conflict hpolicy hplace => exact htaken place new hplace
  | renamed place conflict hpolicy hfree htrimmed => exact hset place content (htrimmed hpath)
  | replaced place old conflict hpolicy hplace => exact htaken place content hplace

theorem Indexed.get?_add {merging : Merging} {place other : String} {content kept : Bytes}
    (hindexed : Indexed nfc casefold merging)
    (hfree : merging.key_to_path.get? (key_of nfc casefold place) = none)
    (hkept : merging.merged.get? other = some kept) :
    (merging.merged.set place content).get? other = some kept := by
  rw [Dict.get?_set_of_ne, hkept]
  rintro rfl
  have hmem := (merging.merged.mem_keys_iff other).mpr ⟨kept, hkept⟩
  rw [(hindexed _ other).mpr ⟨hmem, rfl⟩] at hfree
  cases hfree

-- Only the file of the key that is merged may change, and none where files are renamed.
theorem Placed.frame {merging next : Merging} {path other : String} {content kept : Bytes}
    (hplaced : Placed hasher nfc casefold policy merging path content next)
    (hindexed : Indexed nfc casefold merging) (hkept : merging.merged.get? other = some kept)
    (hother : policy = .RENAME_INCOMING ∨ key_of nfc casefold other ≠ key_of nfc casefold path) :
    next.merged.get? other = some kept := by
  have hstore : ∀ place new, policy ≠ .RENAME_INCOMING →
      merging.key_to_path.get? (key_of nfc casefold path) = some place →
      (merging.merged.set place new).get? other = some kept := by
    intro place new hpolicy htaken
    rw [Dict.get?_set_of_ne, hkept]
    rintro rfl
    exact hother.elim hpolicy (fun hne => hne ((hindexed _ _).mp htaken).2)
  cases hplaced with
  | added hfree => exact hindexed.get?_add hfree hkept
  | same => exact hkept
  | listed => exact hkept
  | updated place old new conflict hpolicy htaken =>
      exact hstore place new (by rw [hpolicy]; decide) htaken
  | renamed place conflict hpolicy hfree => exact hindexed.get?_add hfree hkept
  | replaced place old conflict hpolicy htaken =>
      exact hstore place content (by rw [hpolicy]; decide) htaken

-- What becomes of the file that has the key.
theorem Placed.changed {merging next : Merging} {path other : String} {content old : Bytes}
    {incoming : Dict String Bytes}
    (hplaced : Placed hasher nfc casefold policy merging path content next)
    (hindexed : Indexed nfc casefold merging) (hgiven : incoming.get? path = some content)
    (hold : merging.merged.get? other = some old)
    (hkey : key_of nfc casefold path = key_of nfc casefold other) :
    ∃ new, next.merged.get? other = some new ∧
      Changed hasher nfc casefold policy incoming other old new := by
  have htaken : merging.key_to_path.get? (key_of nfc casefold path) = some other :=
    (hindexed _ other).mpr ⟨(merging.merged.mem_keys_iff other).mpr ⟨old, hold⟩, hkey.symm⟩
  cases hplaced with
  | added hfree =>
      rw [htaken] at hfree
      cases hfree
  | same => exact ⟨old, hold, .unchanged⟩
  | listed => exact ⟨old, hold, .unchanged⟩
  | updated place kept new conflict hpolicy hplace hfile hupdated =>
      cases Option.some.inj (htaken.symm.trans hplace)
      cases Option.some.inj (hold.symm.trans hfile)
      exact ⟨new, Dict.get?_set_self _ _ _, .updated path content new hpolicy hgiven hkey hupdated⟩
  | renamed place conflict hpolicy hfree =>
      exact ⟨old, hindexed.get?_add hfree hold, .unchanged⟩
  | replaced place kept conflict hpolicy hplace hfile hsource =>
      cases Option.some.inj (htaken.symm.trans hplace)
      cases Option.some.inj (hold.symm.trans hfile)
      exact ⟨content, Dict.get?_set_self _ _ _, .replaced path content hpolicy hgiven hkey hsource⟩

theorem Placed.arrived {merging next : Merging} {path : String} {content : Bytes}
    (hplaced : Placed hasher nfc casefold policy merging path content next)
    (hindexed : Indexed nfc casefold merging) :
    Arrived hasher nfc casefold policy next.merged next.conflicts path content := by
  cases hplaced with
  | added hfree => exact .found path rfl (Dict.get?_set_self _ _ _)
  | same place htaken hfile => exact .found place ((hindexed _ place).mp htaken).2 hfile
  | listed place conflict htaken hincoming hresolution =>
      exact .listed conflict List.mem_concat_self hincoming hresolution
  | updated place old new conflict hpolicy htaken hfile hupdated hincoming hresolved =>
      exact .merged conflict place old new hpolicy List.mem_concat_self hincoming hresolved
        ((hindexed _ place).mp htaken).2 hupdated (Dict.get?_set_self _ _ _)
  | renamed place conflict hpolicy hfree _ hincoming hresolved =>
      exact .renamed conflict place hpolicy List.mem_concat_self hincoming hresolved
        (Dict.get?_set_self _ _ _)
  | replaced place old conflict hpolicy htaken hfile hsource =>
      exact .found place ((hindexed _ place).mp htaken).2 (Dict.get?_set_self _ _ _)

-- A file that has arrived is left alone by the merge of one with another key.
theorem Arrived.next {merging next : Merging} {path given : String} {content other : Bytes}
    (harrived : Arrived hasher nfc casefold policy merging.merged merging.conflicts path content)
    (hplaced : Placed hasher nfc casefold policy merging given other next)
    (hindexed : Indexed nfc casefold merging)
    (hkey : key_of nfc casefold path ≠ key_of nfc casefold given) :
    Arrived hasher nfc casefold policy next.merged next.conflicts path content := by
  cases harrived with
  | found place hplace hfile =>
      exact .found place hplace (hplaced.frame hindexed hfile (.inr (hplace ▸ hkey)))
  | renamed conflict place hpolicy hlisted hincoming hresolved hfile =>
      exact .renamed conflict place hpolicy (hplaced.conflicts hlisted) hincoming hresolved
        (hplaced.frame hindexed hfile (.inl hpolicy))
  | merged conflict place old new hpolicy hlisted hincoming hresolved hplace hupdated hfile =>
      exact .merged conflict place old new hpolicy (hplaced.conflicts hlisted) hincoming hresolved
        hplace hupdated (hplaced.frame hindexed hfile (.inr (hplace ▸ hkey)))
  | listed conflict hlisted hincoming hresolution =>
      exact .listed conflict (hplaced.conflicts hlisted) hincoming hresolution

end Step

section Run

variable {hasher : Hasher} {nfc casefold : String → String} {policy : MergePolicy}

-- What holds after some of the files have been merged.
structure Progress (hasher : Hasher) (nfc casefold : String → String) (policy : MergePolicy)
    (existing incoming : Dict String Bytes) (done : List (String × Bytes)) (merging : Merging) :
    Prop where
  indexed : Indexed nfc casefold merging
  untouched : ∀ path old, existing.get? path = some old →
    (∀ entry ∈ done, key_of nfc casefold path ≠ key_of nfc casefold entry.1) →
    merging.merged.get? path = some old
  kept : ∀ path old, existing.get? path = some old → ∃ new, merging.merged.get? path = some new ∧
    Changed hasher nfc casefold policy incoming path old new
  arrived : ∀ entry ∈ done,
    Arrived hasher nfc casefold policy merging.merged merging.conflicts entry.1 entry.2
  trimmed : (∀ path ∈ existing.keys, Trimmed path) → (∀ entry ∈ done, Trimmed entry.1) →
    ∀ place ∈ merging.merged.keys, Trimmed place

theorem Progress.next {existing incoming : Dict String Bytes} {done : List (String × Bytes)}
    {merging next : Merging} {entry : String × Bytes}
    (hprogress : Progress hasher nfc casefold policy existing incoming done merging)
    (hgiven : incoming.get? entry.1 = some entry.2)
    (hfresh : ∀ other ∈ done, key_of nfc casefold other.1 ≠ key_of nfc casefold entry.1)
    (hplaced : Placed hasher nfc casefold policy merging entry.1 entry.2 next) :
    Progress hasher nfc casefold policy existing incoming (done ++ [entry]) next := by
  have hindexed := hprogress.indexed
  refine ⟨hplaced.indexed hindexed, ?_, ?_, ?_, ?_⟩
  · intro path old hold hother
    have hbefore := hprogress.untouched path old hold
      (fun done hdone => hother done (List.mem_append_left _ hdone))
    exact hplaced.frame hindexed hbefore (.inr (hother entry List.mem_concat_self))
  · intro path old hold
    by_cases hkey : key_of nfc casefold entry.1 = key_of nfc casefold path
    · have hbefore := hprogress.untouched path old hold
        (fun other hother hsame => hfresh other hother (hsame.symm.trans hkey.symm))
      exact hplaced.changed hindexed hgiven hbefore hkey
    · obtain ⟨new, hnew, hchanged⟩ := hprogress.kept path old hold
      exact ⟨new, hplaced.frame hindexed hnew (.inr (Ne.symm hkey)), hchanged⟩
  · intro other hother
    rcases List.mem_append.mp hother with hdone | hlast
    · exact (hprogress.arrived other hdone).next hplaced hindexed (hfresh other hdone)
    · cases List.mem_singleton.mp hlast
      exact hplaced.arrived hindexed
  · intro hexisting hdone
    refine hplaced.trimmed hindexed (hdone entry List.mem_concat_self) ?_
    exact hprogress.trimmed hexisting (fun other hother => hdone other (List.mem_append_left _ hother))

theorem progress_run (hfoldings : Foldings nfc casefold) {existing incoming : Dict String Bytes}
    {fuel : Nat} {rest done : List (String × Bytes)} {merging final : Merging}
    (hsafe : ∀ entry ∈ rest, safe_relative_path entry.1 = .ok entry.1)
    (hgiven : ∀ entry ∈ rest, incoming.get? entry.1 = some entry.2)
    (hdistinct : ((done ++ rest).map (fun entry => key_of nfc casefold entry.1)).Nodup)
    (hprogress : Progress hasher nfc casefold policy existing incoming done merging)
    (hfinal : rest.foldlM (merge_file hasher nfc casefold policy fuel) merging = .ok final) :
    Progress hasher nfc casefold policy existing incoming (done ++ rest) final := by
  induction rest generalizing done merging with
  | nil =>
      cases hfinal
      rwa [List.append_nil]
  | cons entry rest ih =>
      rw [List.foldlM_cons] at hfinal
      obtain ⟨next, hnext, hfinal⟩ := of_bind_eq_ok hfinal
      obtain ⟨hentry, hsafe⟩ := List.forall_mem_cons.mp hsafe
      obtain ⟨hcontent, hgiven⟩ := List.forall_mem_cons.mp hgiven
      have hfresh : ∀ other ∈ done, key_of nfc casefold other.1 ≠ key_of nfc casefold entry.1 := by
        intro other hother
        rw [List.map_append, List.map_cons] at hdistinct
        exact (List.nodup_append.mp hdistinct).2.2 _ (List.mem_map_of_mem hother) _ List.mem_cons_self
      have hplaced := placed_of_merge hfoldings hprogress.indexed hentry hnext
      rw [List.append_cons] at hdistinct ⊢
      exact ih hsafe hgiven hdistinct (hprogress.next hcontent hfresh hplaced) hfinal

theorem exists_run (hfoldings : Foldings nfc casefold) {fuel : Nat} {rest : List (String × Bytes)}
    {merging : Merging} (hsafe : ∀ entry ∈ rest, safe_relative_path entry.1 = .ok entry.1)
    (hindexed : Indexed nfc casefold merging)
    (hfuel : merging.key_to_path.keys.length + rest.length < fuel) :
    ∃ final, rest.foldlM (merge_file hasher nfc casefold policy fuel) merging = .ok final := by
  induction rest generalizing merging with
  | nil => exact ⟨merging, rfl⟩
  | cons entry rest ih =>
      obtain ⟨hentry, hsafe⟩ := List.forall_mem_cons.mp hsafe
      rw [List.length_cons] at hfuel
      obtain ⟨next, hnext⟩ := @exists_merged hasher _ _ policy hfoldings _ _ _ hentry
        (lt_of_le_of_lt (Nat.le_add_right _ _) hfuel)
      have hplaced := placed_of_merge hfoldings hindexed hentry hnext
      have hlength := hplaced.length_keys
      rw [List.foldlM_cons, hnext]
      exact ih hsafe (hplaced.indexed hindexed) (by omega)

theorem take_run {entries : List (String × Bytes)} {merging : Merging}
    (hsafe : ∀ entry ∈ entries, safe_relative_path entry.1 = .ok entry.1)
    (hdistinct : (merging.key_to_path.keys ++
      entries.map (fun entry => key_of nfc casefold entry.1)).Nodup)
    (hindexed : Indexed nfc casefold merging) :
    ∃ final, entries.foldlM (take_existing nfc casefold) merging = .ok final ∧
      Indexed nfc casefold final ∧
      final.merged = entries.foldl (fun files entry => files.set entry.1 entry.2) merging.merged ∧
      final.key_to_path.keys.length = merging.key_to_path.keys.length + entries.length := by
  induction entries generalizing merging with
  | nil => exact ⟨merging, rfl, hindexed, rfl, rfl⟩
  | cons entry rest ih =>
      obtain ⟨hentry, hsafe⟩ := List.forall_mem_cons.mp hsafe
      have hnew : key_of nfc casefold entry.1 ∉ merging.key_to_path.keys := fun hmem =>
        List.disjoint_of_nodup_append hdistinct hmem List.mem_cons_self
      have hstep : take_existing nfc casefold merging entry =
          .ok ((merging.stored entry.1 entry.2).indexed (key_of nfc casefold entry.1) entry.1) := by
        rw [take_existing, safe_path, hentry]
        dsimp only [Except.mapError, bind, Except.bind]
        rw [collision_key_eq hentry]
        exact if_neg hnew
      have hkeys := merging.key_to_path.keys_set_of_not_mem entry.1 hnew
      have hfree := (merging.key_to_path.get?_eq_none_iff _).mpr hnew
      rw [List.foldlM_cons, hstep]
      obtain ⟨final, hfinal, hlast, hmerged, hlength⟩ := ih hsafe
        (by
          change ((merging.key_to_path.set _ _).keys ++ _).Nodup
          rw [hkeys, List.append_assoc]
          exact hdistinct)
        (@Indexed.add _ _ _ _ entry.2 hindexed hfree)
      refine ⟨final, hfinal, hlast, hmerged, ?_⟩
      change _ = (merging.key_to_path.set _ _).keys.length + _ at hlength
      rw [hlength, hkeys, List.length_append, List.length_singleton, List.length_cons]
      omega

theorem by_path_perm (files : Dict String Bytes) : (by_path files).Perm files.entries :=
  List.perm_insertionSort _ _

theorem Vault.safe_by_path (vault : Vault nfc casefold) :
    ∀ entry ∈ by_path vault.files, safe_relative_path entry.1 = .ok entry.1 := fun entry hentry =>
  vault.safe entry.1 (List.mem_map_of_mem ((by_path_perm vault.files).mem_iff.mp hentry))

theorem Vault.distinct_by_path (vault : Vault nfc casefold) :
    ((by_path vault.files).map (fun entry => key_of nfc casefold entry.1)).Nodup := by
  have hdistinct := vault.distinct
  rw [Dict.keys, List.map_map] at hdistinct
  exact ((by_path_perm vault.files).map _).nodup_iff.mpr hdistinct

theorem mem_by_path {files : Dict String Bytes} {entry : String × Bytes} :
    entry ∈ by_path files ↔ files.get? entry.1 = some entry.2 := by
  rw [(by_path_perm files).mem_iff, ← Dict.mem_entries_iff]

theorem indexed_empty :
    Indexed nfc casefold { merged := .empty, key_to_path := .empty, conflicts := [] } := by
  intro key place
  constructor
  · rintro ⟨⟩
  · rintro ⟨hmem, -⟩
    cases hmem

-- The existing files are taken as they are.
theorem exists_taken (existing : Vault nfc casefold) :
    ∃ start, (by_path existing.files).foldlM (take_existing nfc casefold)
        { merged := .empty, key_to_path := .empty, conflicts := [] } = .ok start ∧
      start.key_to_path.keys.length = (by_path existing.files).length ∧
      Indexed nfc casefold start ∧ ∀ path, start.merged.get? path = existing.files.get? path := by
  obtain ⟨start, hstart, hindexed, hmerged, hlength⟩ :=
    take_run existing.safe_by_path (by exact existing.distinct_by_path) indexed_empty
  refine ⟨start, hstart, by rw [hlength]; exact Nat.zero_add _, hindexed, fun path => ?_⟩
  rw [hmerged]
  exact Dict.get?_ofPairs_of_perm (by_path_perm existing.files) path

theorem exists_start (existing : Vault nfc casefold) :
    ∃ start, (by_path existing.files).foldlM (take_existing nfc casefold)
        { merged := .empty, key_to_path := .empty, conflicts := [] } = .ok start ∧
      start.key_to_path.keys.length = (by_path existing.files).length ∧
      ∀ policy incoming,
        Progress hasher nfc casefold policy existing.files incoming [] start := by
  obtain ⟨start, hstart, hlength, hindexed, hfiles⟩ := exists_taken existing
  refine ⟨start, hstart, hlength, fun policy incoming => ⟨hindexed, ?_, ?_, ?_, ?_⟩⟩
  · exact fun path old hold _ => (hfiles path).trans hold
  · exact fun path old hold => ⟨old, (hfiles path).trans hold, .unchanged⟩
  · exact fun entry hentry => absurd hentry List.not_mem_nil
  · intro hexisting _ place hplace
    obtain ⟨content, hcontent⟩ := (Dict.mem_keys_iff _ _).mp hplace
    exact hexisting place ((Dict.mem_keys_iff _ _).mpr ⟨content, (hfiles place).symm.trans hcontent⟩)

theorem progress_of_merge_files (hfoldings : Foldings nfc casefold)
    {existing incoming : Vault nfc casefold} {fuel : Nat} {merging : Merging}
    (hmerging : merge_files hasher nfc casefold policy fuel existing.files incoming.files =
      .ok merging) :
    Progress hasher nfc casefold policy existing.files incoming.files (by_path incoming.files)
      merging := by
  obtain ⟨start, hstart, -, hprogress⟩ := @exists_start hasher _ _ existing
  rw [merge_files, hstart] at hmerging
  exact progress_run hfoldings incoming.safe_by_path (fun entry => mem_by_path.mp)
    incoming.distinct_by_path (hprogress policy incoming.files) hmerging

-- There is fuel enough for each free name.
theorem exists_merge_files (hfoldings : Foldings nfc casefold)
    (existing incoming : Vault nfc casefold) (fuel : Nat)
    (hfuel : existing.files.entries.length + incoming.files.entries.length < fuel) :
    ∃ merging, merge_files hasher nfc casefold policy fuel existing.files incoming.files =
      .ok merging := by
  obtain ⟨start, hstart, hlength, hprogress⟩ := @exists_start hasher _ _ existing
  rw [merge_files, hstart]
  refine exists_run hfoldings incoming.safe_by_path (hprogress policy incoming.files).indexed ?_
  rw [hlength, (by_path_perm existing.files).length_eq, (by_path_perm incoming.files).length_eq]
  exact hfuel

end Run

section Plan

variable {hasher : Hasher} {nfc casefold : String → String}

theorem plan_eq_ok {validate : Dict String Bytes → Except MergeRaised (List BrokenVaultLink)}
    {policy : MergePolicy} {fuel : Nat} {existing incoming : Dict String Bytes} {plan : VaultMergePlan}
    (hplan : plan_vault_merge hasher nfc casefold validate policy fuel existing incoming = .ok plan) :
    ∃ merging, merge_files hasher nfc casefold policy fuel existing incoming = .ok merging ∧
      plan.files = validated_files (by_path merging.merged) ∧
      plan.conflicts = merging.conflicts.map VaultConflict.validated ∧
      (∀ conflict ∈ plan.conflicts, conflict.resolution = none → plan.safe_to_apply = false) := by
  rw [plan_vault_merge, except_bind_eq_ok_iff] at hplan
  obtain ⟨merging, hmerging, hplan⟩ := hplan
  obtain ⟨existing_broken, -, hplan⟩ := of_bind_eq_ok hplan
  obtain ⟨broken, -, hplan⟩ := of_bind_eq_ok hplan
  cases hplan
  refine ⟨merging, hmerging, rfl, rfl, ?_⟩
  intro conflict hconflict hnone
  obtain ⟨raw, hraw, rfl⟩ := List.mem_map.mp hconflict
  have hunresolved : merging.conflicts.any (fun conflict => conflict.resolution.isNone) = true :=
    List.any_eq_true.mpr ⟨raw, hraw, Option.isNone_iff_eq_none.mpr (Option.map_eq_none_iff.mp hnone)⟩
  dsimp only
  rw [hunresolved]
  rfl

-- Where no path has a blank to strip, the plan has the merged files as they are.
theorem get?_validated_files {files : Dict String Bytes} (htrimmed : ∀ path ∈ files.keys, Trimmed path)
    (path : String) : (validated_files (by_path files)).get? path = files.get? path := by
  have hsame : (by_path files).map (fun entry => (Text.trim entry.1, entry.2)) = by_path files := by
    refine (List.map_congr_left fun entry hentry => ?_).trans (List.map_id _)
    have hkey := htrimmed entry.1 (List.mem_map_of_mem ((by_path_perm files).mem_iff.mp hentry))
    rw [hkey, id]
  rw [validated_files, hsame]
  exact Dict.get?_ofPairs_of_perm (by_path_perm files) path

theorem trimmed_of_validated {entries : List (String × Bytes)} {path : String} {content : Bytes}
    (hfile : (validated_files entries).get? path = some content) : Trimmed path := by
  obtain ⟨entry, -, hentry⟩ := List.mem_map.mp (Dict.mem_of_get?_ofPairs hfile)
  rw [← (Prod.mk.inj hentry).1]
  exact Text.trim_trim entry.1

theorem validated_of_trimmed {conflict : VaultConflict} {path : String} (hpath : Trimmed path)
    (hincoming : conflict.incoming_path = path) : conflict.validated.incoming_path = path := by
  rw [VaultConflict.validated, hincoming]
  exact hpath

theorem Arrived.transfer {policy : MergePolicy} {files other : Dict String Bytes}
    {conflicts : List VaultConflict} {path : String} {content : Bytes}
    (harrived : Arrived hasher nfc casefold policy files conflicts path content)
    (hsame : ∀ place, other.get? place = files.get? place)
    (htrimmed : ∀ place ∈ files.keys, Trimmed place) (hpath : Trimmed path) :
    Arrived hasher nfc casefold policy other (conflicts.map VaultConflict.validated) path content := by
  have hresolve : ∀ {conflict : VaultConflict} {place : String} {new : Bytes},
      files.get? place = some new → conflict.resolved_path = some place →
        conflict.validated.resolved_path = some place := by
    intro conflict place new hfile hresolved
    have hplace := htrimmed place ((Dict.mem_keys_iff _ _).mpr ⟨new, hfile⟩)
    rw [VaultConflict.validated, hresolved, Option.map_some, hplace]
  cases harrived with
  | found place hkey hfile => exact .found place hkey ((hsame place).trans hfile)
  | renamed conflict place hpolicy hlisted hincoming hresolved hfile =>
      exact .renamed conflict.validated place hpolicy (List.mem_map_of_mem hlisted)
        (validated_of_trimmed hpath hincoming) (hresolve hfile hresolved) ((hsame place).trans hfile)
  | merged conflict place old new hpolicy hlisted hincoming hresolved hkey hupdated hfile =>
      exact .merged conflict.validated place old new hpolicy (List.mem_map_of_mem hlisted)
        (validated_of_trimmed hpath hincoming) (hresolve hfile hresolved) hkey hupdated
        ((hsame place).trans hfile)
  | listed conflict hlisted hincoming hresolution =>
      refine .listed conflict.validated (List.mem_map_of_mem hlisted)
        (validated_of_trimmed hpath hincoming) (hresolution.imp ?_ ?_)
      · exact fun hnone => Option.map_eq_none_iff.mpr hnone
      · rintro ⟨hpolicy, hkept⟩
        refine ⟨hpolicy, ?_⟩
        have hstripped : Text.trim "kept_existing" = "kept_existing" := by decide +kernel
        rw [VaultConflict.validated, hkept, Option.map_some, hstripped]

-- What has arrived has no blank that the plan would have stripped from its path.
theorem Arrived.trimmed (hfoldings : Foldings nfc casefold) {policy : MergePolicy}
    {entries : List (String × Bytes)} {conflicts : List VaultConflict} {path : String} {content : Bytes}
    (harrived : Arrived hasher nfc casefold policy (validated_files entries)
      (conflicts.map VaultConflict.validated) path content) : Trimmed path := by
  have hlist : ∀ conflict ∈ conflicts.map VaultConflict.validated, conflict.incoming_path = path →
      Trimmed path := by
    rintro _ hconflict rfl
    obtain ⟨raw, -, rfl⟩ := List.mem_map.mp hconflict
    exact Text.trim_trim raw.incoming_path
  cases harrived with
  | found place hkey hfile =>
      exact hfoldings.trimmed_of_key place path hkey (trimmed_of_validated hfile)
  | renamed conflict place hpolicy hlisted hincoming => exact hlist conflict hlisted hincoming
  | merged conflict place old new hpolicy hlisted hincoming => exact hlist conflict hlisted hincoming
  | listed conflict hlisted hincoming => exact hlist conflict hlisted hincoming

theorem faithful_iff (hfoldings : Foldings nfc casefold) {policy : MergePolicy}
    {existing incoming : Vault nfc casefold} {plan : VaultMergePlan} {merging : Merging}
    (hprogress : Progress hasher nfc casefold policy existing.files incoming.files
      (by_path incoming.files) merging)
    (hfiles : plan.files = validated_files (by_path merging.merged))
    (hconflicts : plan.conflicts = merging.conflicts.map VaultConflict.validated)
    (hunresolved : ∀ conflict ∈ plan.conflicts, conflict.resolution = none → plan.safe_to_apply = false) :
    Faithful hasher nfc casefold policy existing.files incoming.files plan ↔
      ∀ path ∈ existing.files.keys ++ incoming.files.keys, Trimmed path := by
  constructor
  · intro hfaithful path hpath
    rcases List.mem_append.mp hpath with hexisting | hincoming
    · obtain ⟨old, hold⟩ := (Dict.mem_keys_iff _ _).mp hexisting
      obtain ⟨new, hnew, -⟩ := hfaithful.kept path old hold
      exact trimmed_of_validated (hfiles ▸ hnew)
    · obtain ⟨content, hcontent⟩ := (Dict.mem_keys_iff _ _).mp hincoming
      have harrived := hfaithful.arrived path content hcontent
      rw [hfiles, hconflicts] at harrived
      exact harrived.trimmed hfoldings
  · intro htrimmed
    obtain ⟨hexisting, hincoming⟩ := List.forall_mem_append.mp htrimmed
    have hplaces := hprogress.trimmed hexisting (fun entry hentry =>
      hincoming entry.1 ((Dict.mem_keys_iff _ _).mpr ⟨_, mem_by_path.mp hentry⟩))
    have hsame := get?_validated_files hplaces
    rw [← hfiles] at hsame
    refine ⟨fun path old hold => ?_, fun path content hgiven => ?_, hunresolved⟩
    · obtain ⟨new, hnew, hchanged⟩ := hprogress.kept path old hold
      exact ⟨new, (hsame path).trans hnew, hchanged⟩
    · have harrived := hprogress.arrived (path, content) (mem_by_path.mpr hgiven)
      rw [hconflicts]
      exact harrived.transfer hsame hplaces
        (hincoming path ((Dict.mem_keys_iff _ _).mpr ⟨content, hgiven⟩))

-- A plan loses nothing of either vault just where no path has a blank at an end; and with fuel
-- enough one is made, where the links of the files can be checked.
theorem vault_merge_faithful_iff (hfoldings : Foldings nfc casefold)
    (validate : Dict String Bytes → Except MergeRaised (List BrokenVaultLink)) (policy : MergePolicy)
    (fuel : Nat) (existing incoming : Vault nfc casefold) :
    (∀ plan, plan_vault_merge hasher nfc casefold validate policy fuel existing.files incoming.files =
        .ok plan →
      (Faithful hasher nfc casefold policy existing.files incoming.files plan ↔
        ∀ path ∈ existing.files.keys ++ incoming.files.keys, Trimmed path)) ∧
    (existing.files.entries.length + incoming.files.entries.length < fuel → ∀ raised,
      plan_vault_merge hasher nfc casefold validate policy fuel existing.files incoming.files =
        .error raised →
      ∃ files, validate files = .error raised) := by
  constructor
  · intro plan hplan
    obtain ⟨merging, hmerging, hfiles, hconflicts, hunresolved⟩ := plan_eq_ok hplan
    exact faithful_iff hfoldings (progress_of_merge_files hfoldings hmerging) hfiles hconflicts hunresolved
  · intro hfuel raised hraised
    obtain ⟨merging, hmerging⟩ := @exists_merge_files hasher _ _ policy hfoldings
      existing incoming fuel hfuel
    rw [plan_vault_merge, hmerging] at hraised
    dsimp only [bind, Except.bind] at hraised
    split at hraised
    · rename_i error herror
      cases hraised
      exact ⟨_, herror⟩
    split at hraised
    · rename_i error herror
      cases hraised
      exact ⟨_, herror⟩
    · cases hraised

def lowered (text : String) : String := String.ofList (text.toList.map Char.toLower)

theorem is_blank_between {c : Char} (hlow : 0x20 < c.toNat) (hhigh : c.toNat < 0x85) :
    Text.is_blank c = false := by
  simp only [Text.is_blank, Text.inRanges, List.any_cons, List.any_nil, Bool.or_false]
  simp
  omega

theorem is_blank_toLower (c : Char) : Text.is_blank c.toLower = Text.is_blank c := by
  unfold Char.toLower
  split
  · rename_i hupper
    have hlow : 65 ≤ c.toNat := UInt32.le_iff_toNat_le.mp hupper.1
    have hhigh : c.toNat ≤ 90 := UInt32.le_iff_toNat_le.mp hupper.2
    have hval : (c.val + ('a'.val - 'A'.val)).toNat = c.toNat + 32 := by
      rw [UInt32.toNat_add]
      exact Nat.mod_eq_of_lt (show c.toNat + 32 < _ by omega)
    rw [is_blank_between (show 0x20 < c.toNat by omega) (by omega)]
    apply is_blank_between
    · exact (show 0x20 < c.toNat + 32 by omega).trans_eq hval.symm
    · exact hval.trans_lt (show c.toNat + 32 < 0x85 by omega)
  · rfl

theorem trimmed_lowered (text : String) : Trimmed (lowered text) ↔ Trimmed text := by
  have hmap : ∀ end? : Option Char, (∀ c ∈ end?.map Char.toLower, Text.is_blank c = false) ↔
      ∀ c ∈ end?, Text.is_blank c = false := by
    intro end?
    cases end? with
    | none => simp
    | some c => simp [is_blank_toLower]
  unfold Trimmed lowered
  rw [Text.trim_eq_iff, Text.trim_eq_iff, String.toList_ofList, List.head?_map, List.getLast?_map,
    hmap, hmap]

theorem foldings_lowered : Foldings id lowered where
  nfc_extension _ _ _ := rfl
  nfc_suffix _ _ _ _ _ := rfl
  casefold_append first second := by
    rw [lowered, String.toList_append, List.map_append, String.ofList_append]
    rfl
  casefold_suffix digits hdigits := by
    have hall : "0123456789abcdef".toList.all (fun c => c.toLower == c) = true := by decide
    have hlower : ∀ c ∈ "0123456789abcdef".toList, c.toLower = c :=
      fun c hc => eq_of_beq (List.all_eq_true.mp hall c hc)
    have hsame : digits.toList.map Char.toLower = digits.toList := by
      refine (List.map_congr_left fun c hc => ?_).trans (List.map_id _)
      exact hlower c (of_decide_eq_true (List.all_eq_true.mp hdigits c hc))
    rw [lowered, String.toList_append, List.map_append, hsame, String.ofList_append,
      String.ofList_toList]
    rfl
  trimmed_of_key first second hkey hfirst := by
    rw [← trimmed_lowered]
    exact hkey ▸ (trimmed_lowered first).mpr hfirst

-- Two notes whose paths differ in case.
def sample_existing : Vault id lowered where
  files := Dict.ofPairs [("Notes/Plan.md", [79, 108, 100])]
  safe := by decide +kernel
  distinct := by decide +kernel

def sample_incoming : Vault id lowered where
  files := Dict.ofPairs [("notes/plan.md", [78, 101, 119])]
  safe := by decide +kernel
  distinct := by decide +kernel

def sample_merge : Except MergeRaised VaultMergePlan :=
  plan_vault_merge sha256 id lowered (fun _ => .ok []) .RENAME_INCOMING 3 sample_existing.files
    sample_incoming.files

theorem sample_merge_faithful : ∃ plan, sample_merge = .ok plan ∧
    Faithful sha256 id lowered .RENAME_INCOMING sample_existing.files sample_incoming.files plan := by
  have hmerge := @vault_merge_faithful_iff sha256 _ _ foldings_lowered (fun _ => .ok [])
    .RENAME_INCOMING 3 sample_existing sample_incoming
  have htrimmed : ∀ path ∈ sample_existing.files.keys ++ sample_incoming.files.keys, Trimmed path := by
    unfold Trimmed
    decide +kernel
  cases hplan : sample_merge with
  | ok plan => exact ⟨plan, rfl, (hmerge.1 plan hplan).mpr htrimmed⟩
  | error raised =>
      obtain ⟨files, hraised⟩ := hmerge.2 (by decide) raised hplan
      cases hraised

-- Two notes that differ in the blank behind the path of the second, and nothing to merge into them.
def spaced_existing : Vault id lowered where
  files := Dict.ofPairs [("a.md", [1]), ("a.md ", [2])]
  safe := by decide +kernel
  distinct := by decide +kernel

def spaced_merge : Except MergeRaised VaultMergePlan :=
  plan_vault_merge sha256 id lowered (fun _ => .ok []) .RENAME_INCOMING 3 spaced_existing.files
    (Dict.ofPairs [])

-- The plan is safe to apply and lists no conflict, and the first note is gone.
theorem vault_merge_loses_spaced : ∃ plan, spaced_merge = .ok plan ∧ plan.safe_to_apply = true ∧
    plan.conflicts = [] ∧ plan.files.entries = [("a.md", [2])] ∧
    ¬ Faithful sha256 id lowered .RENAME_INCOMING spaced_existing.files (Dict.ofPairs [])
      plan := by
  have hshape : spaced_merge.toOption.map
      (fun plan => (plan.safe_to_apply, plan.conflicts, plan.files.entries)) =
        some (true, [], [("a.md", [2])]) := by
    decide +kernel
  cases hplan : spaced_merge with
  | error raised => simp [hplan, Except.toOption] at hshape
  | ok plan =>
      simp only [hplan, Except.toOption, Option.map_some, Option.some.injEq, Prod.mk.injEq] at hshape
      obtain ⟨hsafe, hconflicts, hfiles⟩ := hshape
      refine ⟨plan, rfl, hsafe, hconflicts, hfiles, fun hfaithful => ?_⟩
      obtain ⟨new, hnew, -⟩ := hfaithful.kept "a.md " [2] (by decide +kernel)
      have hentry : ("a.md ", new) ∈ plan.files.entries := (plan.files.mem_entries_iff _ _).mpr hnew
      rw [hfiles] at hentry
      simp at hentry

end Plan

end KnowledgeCompiler.Exporters
