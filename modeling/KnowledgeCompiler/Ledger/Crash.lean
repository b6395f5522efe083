import KnowledgeCompiler.Ledger.Durability

namespace KnowledgeCompiler.Ledger

open Lib

namespace IdentityLedger

variable (hasher : Hasher)

-- The file after a write that got no further than `cut` bytes into the line.
def torn (ledger : IdentityLedger) (file : Option ByteArray) (entry : LedgerEntry) (cut : Nat) :
    Option ByteArray :=
  some (file.getD .empty ++ (ledger.line_bytes hasher entry).extract 0 cut)

-- Any append that reports success leaves a file that reopens to one more entry.
def AppendsOne (ledger : IdentityLedger) (file : Option ByteArray) (next : LedgerEntry) : Prop :=
  ∀ live bytes, ledger.append hasher file (ledger.upcoming next) = .ok (live, bytes) →
    ∃ reopened, init hasher (some bytes) = .ok reopened ∧
      reopened.entries = ledger.entries ++ [ledger.upcoming next]

-- The process dies in the append of `entry`, and the next one opens what is left.
def SurvivesReopening (ledger : IdentityLedger) (file : Option ByteArray) (entry : LedgerEntry)
    (cut : Nat) (next : LedgerEntry) : Prop :=
  match init hasher (ledger.torn hasher file entry cut) with
  | .error (.tampered _) => True
  | .error .undecodable => False
  | .ok reopened =>
      (reopened.entries = ledger.entries ∨ reopened.entries = ledger.entries ++ [entry]) ∧
        AppendsOne hasher reopened (ledger.torn hasher file entry cut) next

-- The append of `entry` raises, and the handle stays in use.
def SurvivesRetry (ledger : IdentityLedger) (file : Option ByteArray) (entry : LedgerEntry)
    (cut : Nat) (next : LedgerEntry) : Prop :=
  AppendsOne hasher ledger (ledger.torn hasher file entry cut) next

theorem appendsOne_iff (ledger : IdentityLedger) (file : Option ByteArray) (next : LedgerEntry) :
    AppendsOne hasher ledger file next ↔
      ∃ reopened, (log hasher).read (file.getD .empty ++
          (log hasher).lineBytes ledger (ledger.upcoming next)) = .ok reopened ∧
        reopened.entries = ledger.entries ++ [ledger.upcoming next] := by
  rw [AppendsOne, append_upcoming, line_bytes_eq]
  constructor
  · intro h
    exact h _ _ rfl
  · rintro h live bytes hok
    cases hok
    exact h

theorem torn_eq {ledger : IdentityLedger} {file : Option ByteArray}
    (hkept : Kept hasher ledger file) (entry : LedgerEntry) (cut : Nat) :
    (ledger.torn hasher file entry cut).getD .empty =
      (log hasher).torn ledger.entries entry cut := by
  have hafter : (log hasher).after (log hasher).start ledger.entries = ledger := hkept.after_eq
  rw [torn, Option.getD_some, JsonLines.torn, hafter, hkept.bytes_eq, line_bytes_eq]

-- The whole file, whatever happened before it was whole.

theorem Kept.torn_zero {ledger : IdentityLedger} {file : Option ByteArray}
    (hkept : Kept hasher ledger file) (entry : LedgerEntry) :
    Kept hasher ledger (ledger.torn hasher file entry 0) :=
  ⟨hkept.follows, hkept.after_eq, by rw [torn_eq hasher hkept, JsonLines.torn_zero]⟩

theorem Kept.torn_size {ledger : IdentityLedger} {file : Option ByteArray}
    (hkept : Kept hasher ledger file) {entry : LedgerEntry} (hseq : entry.seq = ledger.next_seq) :
    Kept hasher (ledger.push hasher entry)
      (ledger.torn hasher file entry (ledger.line_bytes hasher entry).size) := by
  rw [torn, ByteArray.extract_zero_size]
  exact hkept.push hasher hseq

theorem init_kept {ledger : IdentityLedger} {file : Option ByteArray}
    (hkept : Kept hasher ledger file) (hunbroken : ∀ entry ∈ ledger.entries, Unbroken entry.strings) :
    init hasher file = .ok ledger := by
  have hfollows : (log hasher).Follows (log hasher).start ledger.entries := hkept.follows
  have hafter : (log hasher).after (log hasher).start ledger.entries = ledger := hkept.after_eq
  have hread := (log hasher).read_bytes hfollows ((allClean_iff hasher _ _).mpr hunbroken)
  rw [init_of_kept hasher hkept, hkept.bytes_eq, hread, hafter]

theorem init_kept_broken {ledger : IdentityLedger} {file : Option ByteArray}
    (hkept : Kept hasher ledger file)
    (hbroken : ¬∀ entry ∈ ledger.entries, Unbroken entry.strings) :
    ∃ refused, init hasher file = .error (.tampered refused) := by
  have hfollows : (log hasher).Follows (log hasher).start ledger.entries := hkept.follows
  obtain ⟨failed, hfailed⟩ := (log hasher).read_bytes_unclean hfollows
    (mt (allClean_iff hasher _ _).mp hbroken)
  exact ⟨_, by rw [init_of_kept hasher hkept, hkept.bytes_eq, hfailed]; rfl⟩

theorem appendsOne_kept_iff {ledger : IdentityLedger} {file : Option ByteArray}
    (hkept : Kept hasher ledger file) (next : LedgerEntry) :
    AppendsOne hasher ledger file next ↔
      (∀ entry ∈ ledger.entries, Unbroken entry.strings) ∧ Unbroken next.strings := by
  have hnext : Kept hasher (ledger.push hasher (ledger.upcoming next))
      (some (file.getD .empty ++ ledger.line_bytes hasher (ledger.upcoming next))) :=
    hkept.push hasher rfl
  have hall : (∀ entry ∈ (ledger.push hasher (ledger.upcoming next)).entries,
      Unbroken entry.strings) ↔
        (∀ entry ∈ ledger.entries, Unbroken entry.strings) ∧ Unbroken next.strings := by
    simp only [push, List.forall_mem_append, List.forall_mem_singleton]
    rfl
  rw [AppendsOne, append_upcoming, ← hall]
  constructor
  · intro hone
    obtain ⟨reopened, hopen, -⟩ := hone _ _ rfl
    by_contra hbroken
    obtain ⟨refused, hrefused⟩ := init_kept_broken hasher hnext hbroken
    rw [hrefused] at hopen
    cases hopen
  · rintro hunbroken live bytes hok
    cases hok
    exact ⟨_, init_kept hasher hnext hunbroken, rfl⟩

theorem appendsOne_of_refused {ledger : IdentityLedger} {file : Option ByteArray} {next : LedgerEntry}
    (hrefused : ∀ found, (log hasher).read (file.getD .empty ++
      (log hasher).lineBytes ledger (ledger.upcoming next)) ≠ .ok found) :
    ¬AppendsOne hasher ledger file next := by
  rw [appendsOne_iff]
  rintro ⟨reopened, hread, -⟩
  exact hrefused reopened hread

theorem survivesReopening_of_tampered {ledger : IdentityLedger} {file : Option ByteArray}
    {entry next : LedgerEntry} {cut : Nat} {refused : LedgerTamperedError}
    (hinit : init hasher (ledger.torn hasher file entry cut) = .error (.tampered refused)) :
    SurvivesReopening hasher ledger file entry cut next := by
  rw [SurvivesReopening, hinit]
  trivial

theorem survivesReopening_of_ok {ledger reopened : IdentityLedger} {file : Option ByteArray}
    {entry next : LedgerEntry} {cut : Nat}
    (hinit : init hasher (ledger.torn hasher file entry cut) = .ok reopened)
    (hentries : reopened.entries = ledger.entries ∨ reopened.entries = ledger.entries ++ [entry]) :
    SurvivesReopening hasher ledger file entry cut next ↔
      AppendsOne hasher reopened (ledger.torn hasher file entry cut) next := by
  rw [SurvivesReopening, hinit]
  exact and_iff_right hentries

-- What the first append after reopening needs, given where the line was cut.
def Reappendable (ledger : IdentityLedger) (entry : LedgerEntry) (cut : Nat) (next : LedgerEntry) :
    Prop :=
  (cut = 0 → Unbroken next.strings) ∧
    (cut + 1 = (ledger.line_bytes hasher entry).size → ¬Unbroken entry.strings) ∧
    (cut = (ledger.line_bytes hasher entry).size → Unbroken entry.strings → Unbroken next.strings)

section

variable {ledger : IdentityLedger} {file : Option ByteArray} (hkept : Kept hasher ledger file)
  {entry : LedgerEntry}

include hkept

theorem init_torn (cut : Nat) : init hasher (ledger.torn hasher file entry cut) =
    (log hasher).read ((log hasher).torn ledger.entries entry cut) := by
  rw [← torn_eq hasher hkept entry cut]
  rfl

theorem survives_zero (hold : ∀ kept ∈ ledger.entries, Unbroken kept.strings) (next : LedgerEntry) :
    SurvivesReopening hasher ledger file entry 0 next ↔ Unbroken next.strings := by
  have hzero := hkept.torn_zero hasher entry
  rw [survivesReopening_of_ok hasher (init_kept hasher hzero hold) (Or.inl rfl),
    appendsOne_kept_iff hasher hzero]
  exact and_iff_right hold

theorem survives_size (hseq : entry.seq = ledger.next_seq)
    (hold : ∀ kept ∈ ledger.entries, Unbroken kept.strings) (next : LedgerEntry) :
    SurvivesReopening hasher ledger file entry (ledger.line_bytes hasher entry).size next ↔
      (Unbroken entry.strings → Unbroken next.strings) := by
  have hwhole := hkept.torn_size hasher hseq
  have hall : (∀ kept ∈ (ledger.push hasher entry).entries, Unbroken kept.strings) ↔
      Unbroken entry.strings := by
    simp only [push, List.forall_mem_append, List.forall_mem_singleton]
    exact and_iff_right hold
  by_cases hentry : Unbroken entry.strings
  · rw [survivesReopening_of_ok hasher (init_kept hasher hwhole (hall.mpr hentry)) (Or.inr rfl),
      appendsOne_kept_iff hasher hwhole]
    exact ⟨fun h _ => h.2, fun h => ⟨hall.mpr hentry, h hentry⟩⟩
  · obtain ⟨refused, hrefused⟩ := init_kept_broken hasher hwhole (mt hall.mp hentry)
    exact iff_of_true (survivesReopening_of_tampered hasher hrefused) (fun h => absurd h hentry)

-- Within the line only the loss of its end alone goes unnoticed, and then the
-- next append lands on the same line.
theorem survives_within (hseq : entry.seq = ledger.next_seq)
    (hold : ∀ kept ∈ ledger.entries, Unbroken kept.strings) {cut : Nat} {held lost : List Char}
    (hline : (log hasher).line ledger entry = held ++ lost) (hheld : held ≠ [])
    (hextract : ((log hasher).lineBytes ledger entry).extract 0 cut = Utf8.encode held)
    (next : LedgerEntry) :
    SurvivesReopening hasher ledger file entry cut next ↔ (lost = [] → ¬Unbroken entry.strings) := by
  have hfollows : (log hasher).Follows (log hasher).start ledger.entries := hkept.follows
  have hafter : (log hasher).after (log hasher).start ledger.entries = ledger := hkept.after_eq
  have hclean := (allClean_iff hasher (log hasher).start _).mpr hold
  have hinit : init hasher (ledger.torn hasher file entry cut) =
      (log hasher).readLines (1 + ledger.entries.length) ledger (Text.splitlines held) := by
    rw [init_torn hasher hkept, (log hasher).read_torn_within hfollows hclean
      (hafter.symm ▸ hline) (hafter.symm ▸ hextract), hafter]
  by_cases hlost : lost = []
  · subst hlost
    rw [List.append_nil] at hline
    by_cases hentry : Unbroken entry.strings
    · rw [← hline, (log hasher).readLines_ended hseq ((clean_iff hasher ledger entry).mpr hentry)]
        at hinit
      rw [survivesReopening_of_ok hasher hinit (Or.inr rfl)]
      refine iff_of_false (appendsOne_of_refused hasher (fun found hfound => ?_))
        (fun h => h rfl hentry)
      have hwhole : (log hasher).line ((log hasher).after (log hasher).start ledger.entries) entry =
          held ++ [] := by
        rw [hafter, hline, List.append_nil]
      rw [torn_eq hasher hkept, (log hasher).read_appended_within hfollows hclean hwhole hheld
        (hafter.symm ▸ hextract)] at hfound
      cases hfound
    · obtain ⟨c, hc, hbreak⟩ := JsonLines.exists_break (mt (clean_iff hasher ledger entry).mp hentry)
      rw [← List.append_nil held, ← hline,
        (log hasher).readLines_broken (List.append_nil _).symm hc hbreak] at hinit
      exact iff_of_true (survivesReopening_of_tampered hasher hinit) (fun _ => hentry)
  · rw [(log hasher).readLines_torn hline hheld hlost] at hinit
    exact iff_of_true (survivesReopening_of_tampered hasher hinit) (fun h => absurd h hlost)

theorem survives_broken (hold : ¬∀ kept ∈ ledger.entries, Unbroken kept.strings) {cut : Nat}
    (hmid : ¬Utf8.MidCharacter ((log hasher).line ledger entry ++ ['\n']) cut) (next : LedgerEntry) :
    SurvivesReopening hasher ledger file entry cut next := by
  have hfollows : (log hasher).Follows (log hasher).start ledger.entries := hkept.follows
  have hafter : (log hasher).after (log hasher).start ledger.entries = ledger := hkept.after_eq
  have hreturn : '\r' ∉ ([] : List Char) := List.not_mem_nil
  have hmid : ¬Utf8.MidCharacter
      ((log hasher).line ((log hasher).after (log hasher).start ledger.entries) entry ++ ['\n']) cut := by
    rwa [hafter]
  obtain ⟨failed, hfailed⟩ := (log hasher).read_torn_unclean hfollows
    (mt (allClean_iff hasher _ _).mp hold) hmid hreturn
  have hempty : Utf8.encode [] = ByteArray.empty := rfl
  rw [hempty, ByteArray.append_empty] at hfailed
  exact survivesReopening_of_tampered hasher ((init_torn hasher hkept cut).trans hfailed)

theorem not_survives_midCharacter {cut : Nat}
    (hcut : cut ≤ ((log hasher).lineBytes ledger entry).size)
    (hmid : Utf8.MidCharacter ((log hasher).line ledger entry ++ ['\n']) cut) (next : LedgerEntry) :
    ¬SurvivesReopening hasher ledger file entry cut next := by
  have hafter : (log hasher).after (log hasher).start ledger.entries = ledger := hkept.after_eq
  rw [SurvivesReopening, init_torn hasher hkept,
    (log hasher).read_torn_midCharacter (hafter.symm ▸ hcut) (hafter.symm ▸ hmid)]
  exact id

theorem survivesReopening_iff (hseq : entry.seq = ledger.next_seq) {cut : Nat}
    (hcut : cut ≤ (ledger.line_bytes hasher entry).size) (next : LedgerEntry) :
    SurvivesReopening hasher ledger file entry cut next ↔
      ¬Utf8.MidCharacter (ledger.line_text hasher entry) cut ∧
        ((∀ kept ∈ ledger.entries, Unbroken kept.strings) →
          Reappendable hasher ledger entry cut next) := by
  have hsize := (log hasher).two_lt_size ledger entry
  unfold Reappendable
  rw [line_text_eq]
  rw [line_bytes_eq] at hcut ⊢
  by_cases hmid : Utf8.MidCharacter ((log hasher).line ledger entry ++ ['\n']) cut
  · exact iff_of_false (not_survives_midCharacter hasher hkept hcut hmid next) (fun h => h.1 hmid)
  by_cases hold : ∀ kept ∈ ledger.entries, Unbroken kept.strings
  swap
  · exact iff_of_true (survives_broken hasher hkept hold hmid next) ⟨hmid, fun h => absurd h hold⟩
  rcases (log hasher).cut_cases ledger entry hmid with rfl | ⟨held, lost, hline, hheld, hextract, hpos, hlt, hend⟩ | rfl
  · rw [survives_zero hasher hkept hold]
    exact ⟨fun h => ⟨hmid, fun _ => ⟨fun _ => h, fun he => by omega, fun he => by omega⟩⟩,
      fun h => (h.2 hold).1 rfl⟩
  · rw [survives_within hasher hkept hseq hold hline hheld hextract, hend]
    exact ⟨fun h => ⟨hmid, fun _ => ⟨fun he => absurd he hpos, h, fun he => by omega⟩⟩,
      fun h => (h.2 hold).2.1⟩
  · have h := survives_size hasher hkept hseq hold next
    rw [line_bytes_eq] at h
    rw [h]
    exact ⟨fun h => ⟨hmid, fun _ => ⟨fun he => by omega, fun he => by omega, fun _ => h⟩⟩,
      fun h => (h.2 hold).2.2 rfl⟩

theorem not_survives_lost_newline (hseq : entry.seq = ledger.next_seq)
    (hold : ∀ kept ∈ ledger.entries, Unbroken kept.strings) (hentry : Unbroken entry.strings)
    (next : LedgerEntry) :
    ¬SurvivesReopening hasher ledger file entry ((ledger.line_bytes hasher entry).size - 1) next := by
  have hsize := (log hasher).two_lt_size ledger entry
  rw [← line_bytes_eq] at hsize
  intro hsurvives
  have h := (survivesReopening_iff hasher hkept hseq (Nat.sub_le _ _) next).mp hsurvives
  exact (h.2 hold).2.1 (by omega) hentry

-- On the handle itself: its number and head stay behind whatever did land.
theorem survivesRetry_iff (hseq : entry.seq = ledger.next_seq) {cut : Nat}
    (hcut : cut ≤ (ledger.line_bytes hasher entry).size) (next : LedgerEntry) :
    SurvivesRetry hasher ledger file entry cut next ↔
      cut = 0 ∧ (∀ kept ∈ ledger.entries, Unbroken kept.strings) ∧ Unbroken next.strings := by
  have hfollows : (log hasher).Follows (log hasher).start ledger.entries := hkept.follows
  have hafter : (log hasher).after (log hasher).start ledger.entries = ledger := hkept.after_eq
  have hsize := (log hasher).two_lt_size ledger entry
  rw [SurvivesRetry]
  have hrefused (h : ∀ found, (log hasher).read ((log hasher).torn ledger.entries entry cut ++
      (log hasher).lineBytes ledger (ledger.upcoming next)) ≠ .ok found) :
      ¬AppendsOne hasher ledger (ledger.torn hasher file entry cut) next :=
    appendsOne_of_refused hasher (by rwa [torn_eq hasher hkept])
  rw [line_bytes_eq] at hcut
  by_cases hmid : Utf8.MidCharacter ((log hasher).line ledger entry ++ ['\n']) cut
  · refine iff_of_false (hrefused (fun found hfound => ?_)) (fun h => hmid [] _ rfl h.1.symm)
    rw [(log hasher).read_appended_midCharacter (hafter.symm ▸ hcut) (hafter.symm ▸ hmid)] at hfound
    cases hfound
  rcases (log hasher).cut_cases ledger entry hmid with rfl | ⟨held, lost, hline, hheld, hextract, hpos, hlt, hend⟩ | rfl
  · rw [appendsOne_kept_iff hasher (hkept.torn_zero hasher entry)]
    exact (and_iff_right rfl).symm
  · refine iff_of_false (hrefused (fun found hfound => ?_)) (fun h => hpos h.1)
    by_cases hold : ∀ kept ∈ ledger.entries, Unbroken kept.strings
    · rw [(log hasher).read_appended_within hfollows ((allClean_iff hasher _ _).mpr hold)
        (hafter.symm ▸ hline) hheld (hafter.symm ▸ hextract)] at hfound
      cases hfound
    · rw [← hafter] at hmid
      obtain ⟨failed, hfailed⟩ := (log hasher).read_torn_unclean hfollows
        (mt (allClean_iff hasher _ _).mp hold) hmid
        ((log hasher).return_not_mem_lineEnd ledger (ledger.upcoming next))
      rw [JsonLines.lineBytes, hfailed] at hfound
      cases hfound
  · refine iff_of_false (hrefused (fun found hfound => ?_)) (fun h => by omega)
    have hwhole := hkept.torn_size hasher hseq
    have hfollows' : (log hasher).Follows (log hasher).start (ledger.entries ++ [entry]) := hwhole.follows
    have hafter' : (log hasher).after (log hasher).start (ledger.entries ++ [entry]) =
        ledger.push hasher entry := hwhole.after_eq
    have htorn := (log hasher).torn_size ledger.entries entry
    rw [hafter] at htorn
    rw [htorn] at hfound
    refine (log hasher).read_out_of_turn hfollows' (fun hturn => ?_) ledger found hfound
    rw [hafter'] at hturn
    have hturn : ledger.next_seq = (ledger.push hasher entry).next_seq := hturn
    simp [next_seq, push] at hturn

end

-- Both ways on from a write that stopped `cut` bytes into the line of `entry`.
theorem crash_consistent_iff {ledger : IdentityLedger} {file : Option ByteArray}
    (hran : Ran hasher ledger file) {entry : LedgerEntry} (hseq : entry.seq = ledger.next_seq)
    {cut : Nat} (hcut : cut ≤ (ledger.line_bytes hasher entry).size) (next : LedgerEntry) :
    (SurvivesReopening hasher ledger file entry cut next ↔
        ¬Utf8.MidCharacter (ledger.line_text hasher entry) cut ∧
          ((∀ kept ∈ ledger.entries, Unbroken kept.strings) →
            Reappendable hasher ledger entry cut next)) ∧
      (SurvivesRetry hasher ledger file entry cut next ↔
        cut = 0 ∧ (∀ kept ∈ ledger.entries, Unbroken kept.strings) ∧ Unbroken next.strings) :=
  ⟨survivesReopening_iff hasher hran.kept hseq hcut next,
    survivesRetry_iff hasher hran.kept hseq hcut next⟩

-- Only the line's brace and its end are lost.
theorem crash_consistent_renewed :
    SurvivesReopening sha256 (renewed sha256) (some (renewed_file sha256))
        ((renewed sha256).upcoming (founded "torn"))
        (((renewed sha256).line_bytes sha256 ((renewed sha256).upcoming (founded "torn"))).size - 2)
        (founded "next") ∧
      SurvivesRetry sha256 (renewed sha256) (some (renewed_file sha256))
        ((renewed sha256).upcoming (founded "torn")) 0 (founded "next") := by
  -- the digest stays a letter, so that nothing evaluates it
  have hany (hasher : Hasher) (ledger : IdentityLedger) (file : Option ByteArray)
      (hran : Ran hasher ledger file) (hunbroken : ∀ entry ∈ ledger.entries, Unbroken entry.strings)
      (torn next : LedgerEntry) (hnext : Unbroken next.strings) :
      SurvivesReopening hasher ledger file (ledger.upcoming torn)
          ((ledger.line_bytes hasher (ledger.upcoming torn)).size - 2) next ∧
        SurvivesRetry hasher ledger file (ledger.upcoming torn) 0 next := by
    have hsize := (log hasher).two_lt_size ledger (ledger.upcoming torn)
    rw [← line_bytes_eq] at hsize
    constructor
    · refine (crash_consistent_iff hasher hran rfl (Nat.sub_le _ _) _).1.mpr ⟨?_, fun _ => ?_⟩
      · rw [line_text_eq, line_bytes_eq]
        exact (log hasher).not_midCharacter_brace _ _
      · exact ⟨fun h => by omega, fun h => by omega, fun h => by omega⟩
    · exact (crash_consistent_iff hasher hran rfl (Nat.zero_le _) _).2.mpr ⟨rfl, hunbroken, hnext⟩
  exact hany sha256 _ _ (ran_renewed sha256) (renewed_unbroken sha256) (founded "torn") (founded "next")
    (by decide)

-- All but the line's end has landed: the record is there, and the next one is
-- written on its line.
theorem lost_newline_swallows_append :
    ¬SurvivesReopening sha256 {} none (founded "plain")
      ((({} : IdentityLedger).line_bytes sha256 (founded "plain")).size - 1) (founded "plain") := by
  have hstart : ∀ kept ∈ ({} : IdentityLedger).entries, Unbroken kept.strings := by simp
  exact not_survives_lost_newline sha256 (Ran.start.kept sha256) rfl hstart (by decide) _

end IdentityLedger

end KnowledgeCompiler.Ledger
