import KnowledgeCompiler.Documents.OrderInvariance
import KnowledgeCompiler.Lib.Moves

namespace KnowledgeCompiler.Documents.ReadingOrder

open Lib

-- The figures and tables a caption may stand behind.
def hosts (caption item : Placed) : Bool :=
  ["figure", "table"].contains item.block.block_type &&
    item.block.page_number = caption.block.page_number

def is_caption (item : Placed) : Bool := item.block.block_type = "caption"

-- The figure or table a caption is put behind.
def anchor_of (blocks : List Placed) (caption : Placed) : Option Placed :=
  ((blocks.takeWhile (· ≠ caption)).filter (hosts caption)).getLast?.or
    ((blocks.dropWhile (· ≠ caption)).filter (hosts caption)).head?

section Selection

theorem firstMin_of_pairwise {α : Type} {before : α → α → Bool} {items : List α}
    (hpairwise : items.Pairwise fun first second => before second first = true) :
    firstMin before items = items.getLast? := by
  cases items with
  | nil => rfl
  | cons first rest =>
    rw [firstMin]
    induction rest generalizing first with
    | nil => rfl
    | cons second rest ih =>
      obtain ⟨hfirst, hrest⟩ := List.pairwise_cons.mp hpairwise
      rw [List.foldl_cons, if_pos (hfirst second List.mem_cons_self), List.getLast?_cons_cons]
      exact ih second hrest

theorem firstMin_of_pairwise_not {α : Type} {before : α → α → Bool} {items : List α}
    (hpairwise : items.Pairwise fun first second => before second first = false) :
    firstMin before items = items.head? := by
  cases items with
  | nil => rfl
  | cons first rest =>
    rw [firstMin]
    induction rest with
    | nil => rfl
    | cons second rest ih =>
      obtain ⟨hfirst, hrest⟩ := List.pairwise_cons.mp hpairwise
      have hsecond : before second first = false := hfirst second List.mem_cons_self
      rw [List.foldl_cons, hsecond]
      refine ih (List.pairwise_cons.mpr ⟨?_, (List.pairwise_cons.mp hrest).2⟩)
      exact fun item hitem => hfirst item (List.mem_cons_of_mem _ hitem)

variable {α : Type} (items : List α) (start : ℕ) (keeps : α → Bool)

def numbered : List (α × ℕ) := (items.zipIdx start).filter fun entry => keeps entry.1

theorem map_fst_numbered : (numbered items start keeps).map Prod.fst = items.filter keeps := by
  induction items generalizing start with
  | nil => rfl
  | cons item rest ih =>
    have hrest := ih (start + 1)
    unfold numbered at hrest ⊢
    rw [List.zipIdx_cons]
    by_cases hkeeps : keeps item = true
    · simp [hkeeps, hrest]
    · simp [hkeeps, hrest]

theorem numbered_ascending :
    (numbered items start keeps).Pairwise fun first second => first.2 < second.2 := by
  refine List.Pairwise.filter _ ?_
  have hindices := @List.pairwise_lt_range' start items.length 1 Nat.one_pos
  rw [← List.zipIdx_map_snd, List.pairwise_map] at hindices
  exact hindices

theorem le_of_mem_numbered {entry : α × ℕ} (hmem : entry ∈ numbered items start keeps) :
    start ≤ entry.2 ∧ entry.2 < start + items.length := by
  obtain ⟨hlow, hhigh, -⟩ := List.mem_zipIdx (List.mem_filter.mp hmem).1
  exact ⟨hlow, hhigh⟩

end Selection

section Anchor

theorem hosts_caption {caption other : Placed} (hcaption : is_caption other = true) :
    hosts caption other = false := by
  have htype : other.block.block_type = "caption" := by simpa [is_caption] using hcaption
  simp [hosts, htype]

theorem anchor_split {left right : List Placed} {caption : Placed} (hleft : caption ∉ left)
    (hcaption : is_caption caption = true) : anchor_of (left ++ caption :: right) caption =
      (left.filter (hosts caption)).getLast?.or (right.filter (hosts caption)).head? := by
  have hwhile : ∀ item ∈ left, decide (item ≠ caption) = true := by
    intro item hitem
    exact decide_eq_true fun heq => hleft (heq ▸ hitem)
  unfold anchor_of
  rw [List.takeWhile_append_of_pos hwhile, List.dropWhile_append_of_pos hwhile]
  simp [hosts_caption hcaption]

-- The source's selection takes the anchor.
theorem place_caption_eq {body : List Placed} {caption : Placed} (hnodup : body.Nodup)
    (hmem : caption ∈ body) (hcaption : is_caption caption = true) :
    place_caption body caption = settle (anchor_of body) body caption := by
  obtain ⟨left, right, rfl, hleft⟩ := List.eq_append_cons_of_mem hmem
  have hindex : (left ++ caption :: right).idxOf caption = left.length := by
    rw [List.idxOf_append_of_notMem hleft, List.idxOf_cons_self, Nat.add_zero]
  have hcandidates : ((left ++ caption :: right).zipIdx.filter fun entry =>
      ["figure", "table"].contains entry.1.block.block_type &&
        entry.1.block.page_number = caption.block.page_number) =
      numbered left 0 (hosts caption) ++ numbered right (left.length + 1) (hosts caption) := by
    have hnot : ¬hosts caption caption = true := by
      rw [hosts_caption hcaption]
      exact Bool.false_ne_true
    rw [List.zipIdx_append, List.zipIdx_cons, List.filter_append, Nat.zero_add]
    exact congrArg (numbered left 0 (hosts caption) ++ ·) (List.filter_cons_of_neg hnot)
  have hbefore : ((numbered left 0 (hosts caption) ++
      numbered right (left.length + 1) (hosts caption)).filter fun entry =>
        decide (entry.2 < left.length)) = numbered left 0 (hosts caption) := by
    rw [List.filter_append, List.filter_eq_self.mpr, List.filter_eq_nil_iff.mpr, List.append_nil]
    · intro entry hentry
      have hlow := (le_of_mem_numbered right _ _ hentry).1
      simp only [decide_eq_true_eq]
      omega
    · intro entry hentry
      have hhigh := (le_of_mem_numbered left _ _ hentry).2
      simpa using hhigh
  have hselected : (if numbered left 0 (hosts caption) ≠ [] then
        firstMin (fun first second => decide (second.2 < first.2)) (numbered left 0 (hosts caption))
      else firstMin (fun first second => decide (((first.2 : ℤ) - left.length).natAbs <
          ((second.2 : ℤ) - left.length).natAbs))
        (numbered left 0 (hosts caption) ++ numbered right (left.length + 1) (hosts caption))).map
          Prod.fst = anchor_of (left ++ caption :: right) caption := by
    rw [anchor_split hleft hcaption, ← map_fst_numbered left 0, ← map_fst_numbered right
      (left.length + 1), List.getLast?_map, List.head?_map]
    by_cases hempty : numbered left 0 (hosts caption) = []
    · -- none before: the nearest one after is the first
      rw [if_neg (not_not_intro hempty), hempty, List.nil_append, firstMin_of_pairwise_not]
      · rfl
      · refine (numbered_ascending right _ _).imp_of_mem fun hone htwo hlt => ?_
        have hone := (le_of_mem_numbered right _ _ hone).1
        have htwo := (le_of_mem_numbered right _ _ htwo).1
        simp only [decide_eq_false_iff_not]
        omega
    · rw [if_pos hempty, firstMin_of_pairwise]
      · obtain ⟨last, hlast⟩ := Option.ne_none_iff_exists'.mp (mt List.getLast?_eq_none_iff.mp hempty)
        rw [hlast]
        rfl
      · exact (numbered_ascending left _ _).imp fun hlt => decide_eq_true hlt
  unfold place_caption
  simp only
  rw [hindex, hcandidates, hbefore]
  unfold settle
  rw [← hselected]
  split
  · rename_i hnone
    rw [hnone]
    rfl
  · rename_i entry hsome
    rw [hsome]
    rfl

theorem takeWhile_filter {α : Type} [DecidableEq α] {keeps : α → Bool} {item : α} (items : List α)
    (hkeeps : keeps item = true) :
    (items.filter keeps).takeWhile (· ≠ item) = (items.takeWhile (· ≠ item)).filter keeps ∧
      (items.filter keeps).dropWhile (· ≠ item) = (items.dropWhile (· ≠ item)).filter keeps := by
  induction items with
  | nil => exact ⟨rfl, rfl⟩
  | cons other rest ih =>
    by_cases heq : other = item
    · subst heq
      simp [hkeeps]
    · by_cases hother : keeps other = true
      · simpa [List.filter_cons, hother, heq] using ih
      · simpa [List.filter_cons, hother, heq] using ih

-- The anchor depends on nothing but the caption and the figures and tables of its page.
theorem anchor_congr {first second : List Placed} {caption : Placed} {keeps : Placed → Bool}
    (hkeeps : keeps caption = true) (hhosts : ∀ item, hosts caption item = true → keeps item = true)
    (hfilter : first.filter keeps = second.filter keeps) :
    anchor_of first caption = anchor_of second caption := by
  have hpart (blocks : List Placed) : anchor_of blocks caption = anchor_of (blocks.filter keeps) caption := by
    obtain ⟨htake, hdrop⟩ := takeWhile_filter blocks hkeeps
    have hnarrow (items : List Placed) :
        (items.filter keeps).filter (hosts caption) = items.filter (hosts caption) := by
      rw [List.filter_filter]
      refine List.filter_congr fun item _ => ?_
      cases hhost : hosts caption item with
      | false => rfl
      | true => rw [hhosts item hhost]; rfl
    rw [anchor_of, anchor_of, htake, hdrop, hnarrow, hnarrow]
  rw [hpart first, hfilter, ← hpart second]

theorem anchor_mem {blocks : List Placed} {caption found : Placed}
    (hfound : anchor_of blocks caption = some found) : found ∈ blocks ∧ hosts caption found = true := by
  unfold anchor_of at hfound
  rcases Option.or_eq_some_iff.mp hfound with hlast | ⟨-, hhead⟩
  · obtain ⟨hmem, hhost⟩ := List.mem_filter.mp (List.mem_of_getLast? hlast)
    exact ⟨(List.takeWhile_sublist _).subset hmem, hhost⟩
  · obtain ⟨hmem, hhost⟩ := List.mem_filter.mp (List.mem_of_head? hhead)
    exact ⟨(List.dropWhile_sublist _).subset hmem, hhost⟩

theorem anchor_none {blocks : List Placed} {caption : Placed}
    (hnone : anchor_of blocks caption = none) : ∀ item ∈ blocks, hosts caption item = false := by
  intro item hitem
  obtain ⟨hlast, hhead⟩ := Option.or_eq_none_iff.mp hnone
  rw [List.getLast?_eq_none_iff, List.filter_eq_nil_iff] at hlast
  rw [List.head?_eq_none_iff, List.filter_eq_nil_iff] at hhead
  rw [← List.takeWhile_append_dropWhile (p := (· ≠ caption)) (l := blocks)] at hitem
  rcases List.mem_append.mp hitem with hitem | hitem
  · exact Bool.eq_false_iff.mpr (hlast item hitem)
  · exact Bool.eq_false_iff.mpr (hhead item hitem)

-- A caption right behind a figure or table of its page stands behind its anchor.
theorem anchor_of_next {blocks : List Placed} {caption found : Placed} (hnodup : blocks.Nodup)
    (hcaption : is_caption caption = true) (hhost : hosts caption found = true)
    (hnext : [found, caption] <:+: blocks) : anchor_of blocks caption = some found := by
  obtain ⟨before, after, rfl⟩ := hnext
  have hsplit : before ++ [found, caption] ++ after = (before ++ [found]) ++ caption :: after := by simp
  rw [hsplit] at hnodup ⊢
  have hleft : caption ∉ before ++ [found] := fun hmem =>
    (List.nodup_append.mp hnodup).2.2 caption hmem caption List.mem_cons_self rfl
  rw [anchor_split hleft hcaption, List.filter_append, List.filter_singleton, hhost]
  simp

end Anchor

section Cues

def leads (item : Placed) : Bool := ["header", "title"].contains item.block.block_type

def trails (item : Placed) : Bool := ["footer", "page_number"].contains item.block.block_type

def in_body (item : Placed) : Bool := !leads item && !trails item

def page_body (blocks : List Placed) : List Placed := blocks.filter in_body

def page_captions (blocks : List Placed) : List Placed := (page_body blocks).filter is_caption

def placed_body (blocks : List Placed) : List Placed :=
  (page_captions blocks).foldl place_caption (page_body blocks)

theorem not_leads_and_trails (item : Placed) : (leads item && trails item) = false := by
  by_cases htrails : trails item = true
  · have hleads : leads item = false := by
      simp only [trails, List.contains_cons, List.contains_nil, Bool.or_false, Bool.or_eq_true,
        beq_iff_eq] at htrails
      rcases htrails with htype | htype <;> simp [leads, htype]
    rw [hleads, Bool.false_and]
  · rw [Bool.eq_false_iff.mpr htrails, Bool.and_false]

theorem caption_in_body {item : Placed} (hcaption : is_caption item = true) : in_body item = true := by
  have htype : item.block.block_type = "caption" := by simpa [is_caption] using hcaption
  simp [in_body, leads, trails, htype]

theorem host_in_body {caption item : Placed} (hhost : hosts caption item = true) :
    in_body item = true := by
  have htype := (Bool.and_eq_true_iff.mp hhost).1
  simp only [List.contains_cons, List.contains_nil, Bool.or_false, Bool.or_eq_true,
    beq_iff_eq] at htype
  rcases htype with htype | htype <;> simp [in_body, leads, trails, htype]

variable (casefold : String → String) (blocks : List Placed)

def lead_key (item : Placed) : Bool ×ₗ BboxKey :=
  toLex (decide (_semantic_role casefold item.block ≠ "header"), _bbox_key item)

theorem semantic_cues_eq : _apply_semantic_cues casefold blocks =
    Ranked.rank (lead_key casefold) (blocks.filter leads) ++ placed_body blocks ++
      Ranked.rank _bbox_key (blocks.filter trails) := by
  have hbody : (blocks.filter fun item =>
      !(blocks.filter leads).contains item && !(blocks.filter trails).contains item) =
        page_body blocks := by
    refine List.filter_congr fun item hmem => ?_
    have hleads : (blocks.filter leads).contains item = leads item := by
      rw [Bool.eq_iff_iff, List.contains_iff_mem, List.mem_filter]
      exact and_iff_right hmem
    have htrails : (blocks.filter trails).contains item = trails item := by
      rw [Bool.eq_iff_iff, List.contains_iff_mem, List.mem_filter]
      exact and_iff_right hmem
    rw [hleads, htrails, in_body]
  unfold placed_body page_captions
  rw [← hbody]
  rfl

theorem placed_body_perm : (placed_body blocks).Perm (page_body blocks) :=
  place_captions_perm _ _ fun _ hmem => (List.mem_filter.mp hmem).1

-- The three parts of a page are found again in the result.
theorem filter_semantic_cues :
    (_apply_semantic_cues casefold blocks).filter leads =
        Ranked.rank (lead_key casefold) (blocks.filter leads) ∧
      page_body (_apply_semantic_cues casefold blocks) = placed_body blocks ∧
      (_apply_semantic_cues casefold blocks).filter trails =
        Ranked.rank _bbox_key (blocks.filter trails) := by
  have hfirst : ∀ item ∈ Ranked.rank (lead_key casefold) (blocks.filter leads), leads item = true :=
    fun item hitem => (List.mem_filter.mp ((Ranked.rank_perm _ _).subset hitem)).2
  have hmiddle : ∀ item ∈ placed_body blocks, in_body item = true :=
    fun item hitem => (List.mem_filter.mp ((placed_body_perm blocks).subset hitem)).2
  have hlast : ∀ item ∈ Ranked.rank _bbox_key (blocks.filter trails), trails item = true :=
    fun item hitem => (List.mem_filter.mp ((Ranked.rank_perm _ _).subset hitem)).2
  -- no block is in two of the parts
  have hapart {items : List Placed} {part other : Placed → Bool} (hitems : ∀ item ∈ items, part item = true)
      (hboth : ∀ item, part item = true → other item = false) : items.filter other = [] :=
    List.filter_eq_nil_iff.mpr fun item hitem =>
      Bool.eq_false_iff.mp (hboth item (hitems item hitem))
  have hleads (item : Placed) (hlead : leads item = true) : trails item = false := by
    simpa [hlead] using not_leads_and_trails item
  have htrails (item : Placed) (htrail : trails item = true) : leads item = false := by
    simpa [htrail] using not_leads_and_trails item
  rw [semantic_cues_eq, page_body]
  refine ⟨?_, ?_, ?_⟩
  · rw [List.filter_append, List.filter_append, List.filter_eq_self.mpr hfirst,
      hapart hmiddle fun item hbody => by simpa using (Bool.and_eq_true_iff.mp hbody).1,
      hapart hlast htrails, List.append_nil, List.append_nil]
  · rw [List.filter_append, List.filter_append, List.filter_eq_self.mpr hmiddle,
      hapart hfirst fun item hlead => by simp [in_body, hlead],
      hapart hlast fun item htrail => by simp [in_body, htrail], List.append_nil, List.nil_append]
  · rw [List.filter_append, List.filter_append, List.filter_eq_self.mpr hlast,
      hapart hfirst hleads,
      hapart hmiddle fun item hbody => by simpa using (Bool.and_eq_true_iff.mp hbody).2,
      List.append_nil, List.nil_append]

-- Where every caption stands behind its anchor, placing captions again moves none.
theorem semantic_cues_idempotent_of (hplaced : ∀ caption ∈ placed_body blocks,
      is_caption caption = true → place_caption (placed_body blocks) caption = placed_body blocks) :
    _apply_semantic_cues casefold (_apply_semantic_cues casefold blocks) =
      _apply_semantic_cues casefold blocks := by
  obtain ⟨hfirst, hmiddle, hlast⟩ := filter_semantic_cues casefold blocks
  have hfold (captions : List Placed) (hcaptions : ∀ caption ∈ captions,
      caption ∈ placed_body blocks ∧ is_caption caption = true) :
      captions.foldl place_caption (placed_body blocks) = placed_body blocks := by
    induction captions with
    | nil => rfl
    | cons caption rest ih =>
      obtain ⟨hmem, hcaption⟩ := hcaptions caption List.mem_cons_self
      rw [List.foldl_cons, hplaced caption hmem hcaption]
      exact ih fun other hother => hcaptions other (List.mem_cons_of_mem _ hother)
  have hbody : placed_body (_apply_semantic_cues casefold blocks) = placed_body blocks := by
    rw [placed_body, page_captions, hmiddle]
    exact hfold _ fun caption hmem => List.mem_filter.mp hmem
  rw [semantic_cues_eq casefold (_apply_semantic_cues casefold blocks), hfirst, hbody, hlast,
    Ranked.rank_of_pairwise _ _ (Ranked.rank_pairwise _ _),
    Ranked.rank_of_pairwise _ _ (Ranked.rank_pairwise _ _), ← semantic_cues_eq]

end Cues

section Placement

variable {blocks : List Placed}

theorem mem_page_captions {item : Placed} :
    item ∈ page_captions blocks ↔ item ∈ blocks ∧ is_caption item = true := by
  rw [page_captions, page_body, List.filter_filter, List.mem_filter, Bool.and_eq_true]
  exact and_congr_right fun _ => and_iff_left_of_imp caption_in_body

theorem anchored_body (hnodup : blocks.Nodup) :
    Anchored (anchor_of blocks) (page_captions blocks) (page_body blocks) where
  nodup := hnodup.filter _
  subset _ hitem := (List.mem_filter.mp hitem).1
  anchors caption hcaption found hfound := by
    obtain ⟨hmem, hhost⟩ := anchor_mem hfound
    refine ⟨List.mem_filter.mpr ⟨hmem, host_in_body hhost⟩, fun hin => ?_⟩
    rw [hosts_caption (mem_page_captions.mp hin).2] at hhost
    cases hhost

-- Moving one caption leaves the anchors of the others.
theorem foldl_place_caption {moving body : List Placed}
    (hanchored : Anchored (anchor_of blocks) moving body) (rest : List Placed)
    (hrest : ∀ caption ∈ rest, caption ∈ moving ∧ is_caption caption = true) (hnodup : rest.Nodup)
    (hsame : ∀ caption ∈ rest, anchor_of body caption = anchor_of blocks caption) :
    rest.foldl place_caption body = rest.foldl (settle (anchor_of blocks)) body := by
  induction rest generalizing body with
  | nil => rfl
  | cons caption rest ih =>
    obtain ⟨hmem, hcaption⟩ := hrest caption List.mem_cons_self
    obtain ⟨hnot, hnodup⟩ := List.nodup_cons.mp hnodup
    have hstep : place_caption body caption = settle (anchor_of blocks) body caption := by
      rw [place_caption_eq hanchored.nodup (hanchored.subset caption hmem) hcaption]
      unfold settle
      rw [hsame caption List.mem_cons_self]
    rw [List.foldl_cons, List.foldl_cons, hstep]
    refine ih (hanchored.of_perm (hanchored.settle_perm hmem))
      (fun other hother => hrest other (List.mem_cons_of_mem _ hother)) hnodup ?_
    intro other hother
    rw [← hsame other (List.mem_cons_of_mem _ hother)]
    have hne : caption ≠ other := fun heq => hnot (heq ▸ hother)
    refine @anchor_congr _ _ other (fun item => item = other || hosts other item) (by simp)
      (fun item hitem => by simp [hitem]) ?_
    exact hanchored.filter_settle hmem (by simp [hne, hosts_caption hcaption])

theorem placed_body_eq (hnodup : blocks.Nodup) : placed_body blocks =
    (page_captions blocks).foldl (settle (anchor_of blocks)) (page_body blocks) := by
  have hanchored := anchored_body hnodup
  refine foldl_place_caption hanchored _ (fun caption hmem => ⟨hmem, (mem_page_captions.mp hmem).2⟩)
    (hanchored.nodup.filter _) fun caption hmem => ?_
  refine @anchor_congr _ _ caption in_body (caption_in_body (mem_page_captions.mp hmem).2)
    (fun item hitem => host_in_body hitem) ?_
  rw [page_body, List.filter_filter]
  simp

theorem sublist_semantic_cues {casefold : String → String} {items : List Placed}
    (hsublist : items.Sublist (placed_body blocks)) :
    items.Sublist (_apply_semantic_cues casefold blocks) := by
  rw [semantic_cues_eq, List.append_assoc]
  exact (hsublist.trans (List.sublist_append_left _ _)).trans (List.sublist_append_right _ _)

end Placement

-- Captions of one figure or table stand in the result as they did on the page.
def KeepsCaptionOrder (blocks result : List Placed) : Prop :=
  ∀ first second host, is_caption first = true → is_caption second = true →
    anchor_of blocks first = some host → anchor_of blocks second = some host →
    [first, second].Sublist blocks → [first, second].Sublist result

-- No two captions are attached to one figure or table.
def OneCaptionEach (blocks : List Placed) : Prop :=
  ∀ first ∈ blocks, ∀ second ∈ blocks, ∀ host, is_caption first = true → is_caption second = true →
    anchor_of blocks first = some host → anchor_of blocks second = some host → first = second

section Stability

variable {blocks : List Placed}

-- The second caption is put between the anchor and the first one.
theorem captions_swapped {casefold : String → String} (hnodup : blocks.Nodup)
    (horder : KeepsCaptionOrder blocks (_apply_semantic_cues casefold blocks)) {first second host : Placed}
    (hfirst : anchor_of blocks first = some host) (hsecond : anchor_of blocks second = some host)
    {before between after : List Placed}
    (hcaptions : page_captions blocks = before ++ first :: (between ++ second :: after)) : False := by
  have hanchored := anchored_body hnodup
  have hswapped := hanchored.swapped_foldl hcaptions (hanchored.nodup.filter _) hfirst hsecond
  rw [← placed_body_eq hnodup] at hswapped
  have hpair : [first, second].Sublist (page_captions blocks) := by
    have hrest : [second].Sublist (between ++ second :: after) := List.singleton_sublist.mpr (by simp)
    rw [hcaptions]
    exact (List.cons_sublist_cons.mpr hrest).trans (List.sublist_append_right _ _)
  have hmem (item : Placed) (hitem : item ∈ [first, second]) : is_caption item = true :=
    (mem_page_captions.mp (hpair.subset hitem)).2
  have hblocks : [first, second].Sublist blocks :=
    (hpair.trans List.filter_sublist).trans List.filter_sublist
  have hkept := horder first second host (hmem first (by simp)) (hmem second (by simp)) hfirst hsecond
    hblocks
  exact not_sublist_swap ((semantic_cues_perm casefold blocks).nodup_iff.mpr hnodup) hkept
    (sublist_semantic_cues hswapped)

theorem one_caption_each {casefold : String → String} (hnodup : blocks.Nodup)
    (horder : KeepsCaptionOrder blocks (_apply_semantic_cues casefold blocks)) :
    OneCaptionEach blocks := by
  intro first hfirst second hsecond host hcaption hcaption' hanchor hanchor'
  by_contra hne
  obtain ⟨before, rest, hsplit⟩ := List.append_of_mem (mem_page_captions.mpr ⟨hfirst, hcaption⟩)
  have hmem := mem_page_captions.mpr ⟨hsecond, hcaption'⟩
  rw [hsplit] at hmem
  rcases List.mem_append.mp hmem with hbefore | hrest
  · obtain ⟨left, right, hleft⟩ := List.append_of_mem hbefore
    rw [hleft, List.append_assoc, List.cons_append] at hsplit
    exact captions_swapped hnodup horder hanchor' hanchor hsplit
  · rcases List.mem_cons.mp hrest with heq | hrest
    · exact hne heq.symm
    · obtain ⟨left, right, hright⟩ := List.append_of_mem hrest
      rw [hright] at hsplit
      exact captions_swapped hnodup horder hanchor hanchor' hsplit

theorem caption_placed (hnodup : blocks.Nodup) (hone : OneCaptionEach blocks) {caption : Placed}
    (hmem : caption ∈ placed_body blocks) (hcaption : is_caption caption = true) :
    place_caption (placed_body blocks) caption = placed_body blocks := by
  have hanchored := anchored_body hnodup
  have hperm := placed_body_perm blocks
  have hplaced_nodup : (placed_body blocks).Nodup := hperm.nodup_iff.mpr hanchored.nodup
  have hblocks : caption ∈ blocks := (List.mem_filter.mp (hperm.subset hmem)).1
  have hapart : ∀ first ∈ page_captions blocks, ∀ second ∈ page_captions blocks, ∀ found,
      anchor_of blocks first = some found → anchor_of blocks second = some found → first = second := by
    intro first hfirst second hsecond found
    obtain ⟨hfirst, hcaption⟩ := mem_page_captions.mp hfirst
    obtain ⟨hsecond, hcaption'⟩ := mem_page_captions.mp hsecond
    exact hone first hfirst second hsecond found hcaption hcaption'
  have hnext := hanchored.next_foldl [] (page_captions blocks) (fun _ hitem => hitem)
    (hanchored.nodup.filter _) hapart (fun _ hitem => absurd hitem List.not_mem_nil)
  rw [← placed_body_eq hnodup] at hnext
  have hanchor : anchor_of (placed_body blocks) caption = anchor_of blocks caption := by
    cases hfound : anchor_of blocks caption with
    | none =>
      rw [Option.eq_none_iff_forall_not_mem]
      intro found hother
      obtain ⟨hin, hhost⟩ := anchor_mem hother
      have hin := (List.mem_filter.mp (hperm.subset hin)).1
      rw [anchor_none hfound found hin] at hhost
      cases hhost
    | some found =>
      exact anchor_of_next hplaced_nodup hcaption (anchor_mem hfound).2
        (hnext caption (mem_page_captions.mpr ⟨hblocks, hcaption⟩) found hfound)
  rw [place_caption_eq hplaced_nodup hmem hcaption]
  unfold settle
  rw [hanchor]
  split
  · rfl
  · rename_i found hfound
    exact moveAfter_of_next hplaced_nodup
      (hnext caption (mem_page_captions.mpr ⟨hblocks, hcaption⟩) found hfound)

theorem semantic_cues_stable_iff (casefold : String → String) (blocks : List Placed)
    (hnodup : blocks.Nodup) :
    (KeepsCaptionOrder blocks (_apply_semantic_cues casefold blocks) ∧
      _apply_semantic_cues casefold (_apply_semantic_cues casefold blocks) =
        _apply_semantic_cues casefold blocks) ↔ OneCaptionEach blocks := by
  constructor
  · rintro ⟨horder, -⟩
    exact one_caption_each hnodup horder
  · intro hone
    constructor
    · intro first second host hfirst hsecond hanchor hanchor' hsublist
      have heq := hone first (hsublist.subset (by simp)) second (hsublist.subset (by simp)) host hfirst
        hsecond hanchor hanchor'
      have hpair := hsublist.nodup hnodup
      simp [heq] at hpair
    · exact semantic_cues_idempotent_of casefold blocks
        fun caption hmem hcaption => caption_placed hnodup hone hmem hcaption

end Stability

section Sample

def sample_block (block_id block_type : String) (top : ℤ) : Placed where
  block := {
    block_id
    page_number := 1
    order := top
    block_type
    raw_text := ""
    normalized_text := ""
    bbox1000 := some (0, top, 10, top + 10)
    source_ref_ids := [] }
  box := (0, top, 10, top + 10)
  placed := rfl

def figure_page : List Placed := [sample_block "figure" "figure" 0, sample_block "first" "caption" 10]

def two_caption_page : List Placed := figure_page ++ [sample_block "second" "caption" 20]

theorem single_caption_stable :
    KeepsCaptionOrder figure_page (_apply_semantic_cues id figure_page) ∧
      _apply_semantic_cues id (_apply_semantic_cues id figure_page) = _apply_semantic_cues id figure_page := by
  refine (semantic_cues_stable_iff id figure_page (by decide)).mpr ?_
  intro first hfirst second hsecond _ hcaption hcaption' _ _
  have honly : ∀ item ∈ figure_page, is_caption item = true → item = sample_block "first" "caption" 10 := by
    decide
  rw [honly first hfirst hcaption, honly second hsecond hcaption']

-- Two captions of one figure are turned round, and turned round again by a second run.
theorem captions_turned_round : two_caption_page.Nodup ∧
    ¬KeepsCaptionOrder two_caption_page (_apply_semantic_cues id two_caption_page) ∧
    _apply_semantic_cues id (_apply_semantic_cues id two_caption_page) ≠
      _apply_semantic_cues id two_caption_page := by
  refine ⟨by decide, fun horder => ?_, by decide⟩
  have hkept := horder (sample_block "first" "caption" 10) (sample_block "second" "caption" 20)
    (sample_block "figure" "figure" 0) rfl rfl (by decide) (by decide) (by decide)
  exact absurd hkept (by decide)

end Sample

end KnowledgeCompiler.Documents.ReadingOrder
