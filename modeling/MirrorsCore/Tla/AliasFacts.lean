import Mathlib
import MirrorsCore.Lib.StableInsert
import MirrorsCore.Tla.Layout

/-! The operator aliases of a profile. The buckets are a stable sort of the alias
table by length, so the first entry that matches is the longest alias, and it
has the canonical spelling that the table gives for the matched text. -/

namespace MirrorsCore.Tla
open Lib

variable {cs : List Char} {bytes : ByteArray} {chars : List SourceChar} {i j n : Nat}

/-! ### Buckets -/

def AliasBefore (entry existing : AliasEntry) : Prop := aliasBefore entry existing = true

instance : DecidableRel AliasBefore := fun entry existing =>
  inferInstanceAs (Decidable (aliasBefore entry existing = true))

theorem aliasBefore_iff {entry existing : AliasEntry} :
    AliasBefore entry existing ↔ existing.byteLength < entry.byteLength ∨
      entry.byteLength = existing.byteLength ∧ entry.spelling < existing.spelling := by
  unfold AliasBefore aliasBefore
  split_ifs with hne
  · rw [bne_iff_ne] at hne
    rw [decide_eq_true_eq]
    exact ⟨Or.inl, fun h => h.resolve_right fun heq => hne heq.1⟩
  · rw [bne_iff_ne, not_not] at hne
    rw [decide_eq_true_eq]
    constructor
    · exact fun hlt => Or.inr ⟨hne, hlt⟩
    · rintro (hlt | ⟨-, hlt⟩)
      · exact absurd hlt (hne ▸ lt_irrefl _)
      · exact hlt

instance : IsStrictOrder AliasEntry AliasBefore where
  irrefl entry h := by
    rcases aliasBefore_iff.1 h with h | ⟨-, h⟩
    · exact lt_irrefl _ h
    · exact lt_irrefl _ h
  trans first second third h h' := by
    rw [aliasBefore_iff] at h h' ⊢
    rcases h with h | ⟨heq, h⟩
    · rcases h' with h' | ⟨heq', -⟩
      · exact Or.inl (h'.trans h)
      · exact Or.inl (heq' ▸ h)
    · rcases h' with h' | ⟨heq', h'⟩
      · exact Or.inl (heq ▸ h')
      · exact Or.inr ⟨heq.trans heq', h.trans h'⟩

theorem foldl_insertAliasStep_inserted (entry : AliasEntry) (entries result : List AliasEntry) :
    entries.foldl (insertAliasStep entry) { result, inserted := true } =
      { result := result ++ entries, inserted := true } := by
  induction entries generalizing result with
  | nil => rw [List.foldl_nil, List.append_nil]
  | cons existing entries ih =>
    rw [List.foldl_cons]
    show List.foldl (insertAliasStep entry) { result := result ++ [existing], inserted := true }
      entries = _
    rw [ih, List.append_assoc]
    rfl

theorem insertAlias_eq (entry : AliasEntry) (entries : List AliasEntry) :
    insertAlias entry entries = entries.orderedInsert AliasBefore entry := by
  have hloop : ∀ result : List AliasEntry,
      (if (entries.foldl (insertAliasStep entry) { result, inserted := false }).inserted then
        (entries.foldl (insertAliasStep entry) { result, inserted := false }).result
      else (entries.foldl (insertAliasStep entry) { result, inserted := false }).result ++ [entry]) =
        result ++ entries.orderedInsert AliasBefore entry := by
    induction entries with
    | nil => exact fun result => rfl
    | cons existing entries ih =>
      intro result
      rw [List.foldl_cons, List.orderedInsert_cons]
      by_cases hbefore : AliasBefore entry existing
      · have hstep : insertAliasStep entry { result, inserted := false } existing =
            { result := result ++ [entry, existing], inserted := true } := by
          unfold insertAliasStep
          rw [show aliasBefore entry existing = true from hbefore]
          rfl
        rw [hstep, foldl_insertAliasStep_inserted, if_pos rfl, if_pos hbefore, List.append_assoc]
        rfl
      · have hstep : insertAliasStep entry { result, inserted := false } existing =
            { result := result ++ [existing], inserted := false } := by
          unfold insertAliasStep
          rw [Bool.eq_false_of_not_eq_true hbefore]
          rfl
        rw [hstep, ih, if_neg hbefore, List.append_assoc]
        rfl
  exact (hloop []).trans (List.nil_append _)

theorem bucketIndex_lt (character : Char) : bucketIndex character < 95 := by
  unfold bucketIndex
  dsimp only
  split_ifs with h
  · rw [Bool.and_eq_true, decide_eq_true_eq, decide_eq_true_eq] at h
    omega
  · decide

def aliasEntries (profile : LanguageProfile) : List AliasEntry :=
  profile.symbols.flatMap fun group => group.spellings.map (aliasEntryOf group.canonical)

def inBucket (b : Nat) (entry : AliasEntry) : Bool :=
  entry.characters.head?.any fun first => bucketIndex first == b

/-- One entry of the table goes into its bucket. -/
def addEntry (buckets : List (List AliasEntry)) (entry : AliasEntry) : List (List AliasEntry) :=
  match entry.characters.head? with
  | none => buckets
  | some first =>
      buckets.set (bucketIndex first) (insertAlias entry (buckets.getD (bucketIndex first) []))

theorem buildAliasBuckets_eq (profile : LanguageProfile) :
    buildAliasBuckets profile = (aliasEntries profile).foldl addEntry (List.replicate 95 []) := by
  have hgroup : ∀ (group : SymbolAlias) (buckets : List (List AliasEntry)),
      group.spellings.foldl (addAlias group.canonical) buckets =
        (group.spellings.map (aliasEntryOf group.canonical)).foldl addEntry buckets := by
    intro group buckets
    rw [List.foldl_map]
    rfl
  unfold buildAliasBuckets aliasEntries
  rw [List.foldl_flatMap]
  congr 1
  funext buckets group
  exact hgroup group buckets

theorem getD_foldl_addEntry (entries : List AliasEntry) {b : Nat} (hb : b < 95) :
    (entries.foldl addEntry (List.replicate 95 [])).length = 95 ∧
      (entries.foldl addEntry (List.replicate 95 [])).getD b [] =
        insertEach AliasBefore (entries.filter (inBucket b)) := by
  induction entries using List.reverseRecOn with
  | nil =>
    refine ⟨List.length_replicate, ?_⟩
    rw [List.foldl_nil, List.getD_eq_getElem?_getD, List.getElem?_replicate, if_pos hb]
    rfl
  | append_singleton entries entry ih =>
    obtain ⟨hlength, hget⟩ := ih
    rw [List.foldl_append, List.foldl_cons, List.foldl_nil, List.filter_append]
    generalize entries.foldl addEntry (List.replicate 95 []) = buckets at hlength hget ⊢
    unfold addEntry
    cases hhead : entry.characters.head? with
    | none =>
      have hout : [entry].filter (inBucket b) = [] := by
        unfold inBucket
        rw [List.filter_singleton, hhead]
        rfl
      rw [hout, List.append_nil]
      exact ⟨hlength, hget⟩
    | some first =>
      dsimp only
      refine ⟨by rw [List.length_set, hlength], ?_⟩
      have hin : [entry].filter (inBucket b) = if bucketIndex first = b then [entry] else [] := by
        unfold inBucket
        rw [List.filter_singleton, hhead]
        simp [beq_iff_eq]
      rw [hin, List.getD_eq_getElem?_getD, List.getElem?_set]
      by_cases heq : bucketIndex first = b
      · rw [if_pos heq, if_pos heq, if_pos (by rw [hlength, heq]; exact hb), heq, hget]
        unfold insertEach
        rw [List.foldl_append, insertAlias_eq]
        rfl
      · rw [if_neg heq, if_neg heq, List.append_nil, ← List.getD_eq_getElem?_getD]
        exact hget

/-! ### Matching -/

/-- The spelling of an entry stands in the text. -/
def SpelledAt (cs : List Char) (i : Nat) (entry : AliasEntry) : Prop :=
  i + entry.characters.length ≤ cs.length ∧
    between cs i (i + entry.characters.length) = entry.characters

/-- The entry is matched so far, or refuted. -/
structure AliasMatch.Sound (cs : List Char) (i : Nat) (entry : AliasEntry) (scan : AliasMatch) :
    Prop where
  le : scan.offset ≤ entry.characters.length
  matched : scan.matched = true →
    between cs i (i + scan.offset) = entry.characters.take scan.offset
  refuted : scan.matched = false →
    between cs i (i + entry.characters.length) ≠ entry.characters

theorem sound_matchesAliasStep (h : Layout cs bytes chars) {entry : AliasEntry} {scan : AliasMatch}
    (hscan : scan.Sound cs i entry) (hmatched : scan.matched = true)
    (hlt : scan.offset < entry.characters.length) :
    (matchesAliasStep entry chars i scan).Sound cs i entry ∧
      ((matchesAliasStep entry chars i scan).matched = false ∨
        scan.offset < (matchesAliasStep entry chars i scan).offset) ∧
      scan.offset ≤ (matchesAliasStep entry chars i scan).offset := by
  have hentry : entry.characters[scan.offset]? = some entry.characters[scan.offset] :=
    List.getElem?_eq_getElem hlt
  unfold matchesAliasStep
  rw [h.charAt?_eq]
  split_ifs with hsame
  · rw [beq_iff_eq] at hsame
    refine ⟨⟨hlt, fun _ => ?_, fun hfalse => ?_⟩, Or.inr (Nat.lt_succ_self _), Nat.le_succ _⟩
    · rw [← between_append cs (Nat.le_add_right i scan.offset)
        (Nat.add_le_add_left (Nat.le_succ _) i), hscan.matched hmatched, List.take_add_one, ← hsame]
      rw [hentry] at hsame
      rw [hsame]
      exact congrArg _ (between_succ hsame)
    · exact Bool.noConfusion (hmatched.symm.trans hfalse)
  · refine ⟨⟨hlt.le, nofun, fun _ heq => hsame ?_⟩, Or.inl rfl, le_rfl⟩
    rw [beq_iff_eq, ← getElem?_between (i := i) (j := i + entry.characters.length)
      (Nat.add_lt_add_left hlt i), heq]

theorem matchesAliasAt_iff (h : Layout cs bytes chars) (entry : AliasEntry) (i : Nat) :
    matchesAliasAt entry chars i = true ↔ SpelledAt cs i entry := by
  unfold matchesAliasAt SpelledAt
  rw [h.length]
  split_ifs with hlong
  · exact ⟨nofun, fun hspelled => absurd hspelled.1 (Nat.not_le_of_lt hlong)⟩
  · have hlength := Nat.le_of_not_lt hlong
    have hloop := whileLoop_spec (AliasMatch.Sound cs i entry)
      (fun scan => (entry.characters.length - scan.offset) + if scan.matched then 1 else 0)
      (fun scan => scan.matched && scan.offset < entry.characters.length)
      (matchesAliasStep entry chars i) {} ?_
      ⟨Nat.zero_le _, fun _ => between_self cs i, nofun⟩
    · generalize whileLoop _ _ _ _ = scan at hloop ⊢
      obtain ⟨hsound, hdone⟩ := hloop
      constructor
      · intro hmatched
        rw [hmatched, Bool.true_and, decide_eq_false_iff_not] at hdone
        have hfull : scan.offset = entry.characters.length :=
          le_antisymm hsound.le (Nat.le_of_not_lt hdone)
        have heq := hsound.matched hmatched
        rw [hfull, List.take_length] at heq
        exact ⟨hlength, heq⟩
      · rintro ⟨-, heq⟩
        by_contra hfalse
        exact hsound.refuted (Bool.eq_false_of_not_eq_true hfalse) heq
    · intro scan hscan htest
      rw [Bool.and_eq_true, decide_eq_true_eq] at htest
      obtain ⟨hsound, hmoved, hle⟩ := sound_matchesAliasStep h hscan htest.1 htest.2
      refine ⟨hsound, ?_⟩
      rw [if_pos htest.1]
      rcases hmoved with hstopped | hmoved
      · rw [hstopped]
        exact Nat.lt_succ_of_le (Nat.sub_le_sub_left hle _)
      · have hless := Nat.sub_lt_sub_left htest.2 hmoved
        split <;> omega

/-! ### The longest alias -/

/-- Text of a length that the alias table gives a canonical spelling. -/
structure AliasAt (profile : LanguageProfile) (cs : List Char) (i : Nat) (canonical : String)
    (n : Nat) : Prop where
  pos : 0 < n
  le_length : i + n ≤ cs.length
  canonical : profile.canonicalFor? (String.ofList (between cs i (i + n))) = some canonical

theorem head?_filter_aliasEntryOf (canonical spelling : String) (spellings : List String) :
    ((spellings.map (aliasEntryOf canonical)).filter (·.spelling == spelling)).head?.map
        AliasEntry.canonical =
      if spellings.contains spelling then some canonical else none := by
  induction spellings with
  | nil => rfl
  | cons first rest ih =>
    have hspelling : (aliasEntryOf canonical first).spelling = first := rfl
    rw [List.map_cons, List.filter_cons, List.contains_cons, hspelling]
    by_cases heq : first = spelling
    · rw [if_pos (beq_iff_eq.2 heq), heq, beq_self_eq_true, Bool.true_or]
      rfl
    · rw [if_neg (fun h => heq (beq_iff_eq.1 h)), ih,
        beq_eq_false_iff_ne.2 (fun h => heq h.symm), Bool.false_or]

theorem canonicalFor?_eq (profile : LanguageProfile) (spelling : String) :
    profile.canonicalFor? spelling =
      ((aliasEntries profile).filter (·.spelling == spelling)).head?.map AliasEntry.canonical := by
  unfold LanguageProfile.canonicalFor? aliasEntries
  induction profile.symbols with
  | nil => rfl
  | cons group groups ih =>
    have hgroup := head?_filter_aliasEntryOf group.canonical spelling group.spellings
    rw [List.findSome?_cons, List.flatMap_cons, List.filter_append, List.head?_append]
    by_cases hmem : group.spellings.contains spelling = true
    · rw [if_pos hmem] at hgroup ⊢
      obtain ⟨entry, hentry, hcanonical⟩ := Option.map_eq_some_iff.1 hgroup
      rw [hentry, Option.some_or, Option.map_some, hcanonical]
    · rw [if_neg hmem] at hgroup ⊢
      rw [Option.map_eq_none_iff.1 hgroup, Option.none_or]
      exact ih

theorem entry_of_mem {profile : LanguageProfile} {entry : AliasEntry}
    (h : entry ∈ aliasEntries profile) :
    entry.characters = entry.spelling.toList ∧ entry.byteLength = entry.spelling.toUTF8.size := by
  obtain ⟨group, -, hgroup⟩ := List.mem_flatMap.1 h
  obtain ⟨spelling, -, rfl⟩ := List.mem_map.1 hgroup
  exact ⟨rfl, rfl⟩

theorem spelling_eq {profile : LanguageProfile} {entry : AliasEntry}
    (h : entry ∈ aliasEntries profile) : entry.spelling = String.ofList entry.characters := by
  rw [(entry_of_mem h).1, String.ofList_toList]

theorem byteLength_eq {profile : LanguageProfile} {entry : AliasEntry}
    (h : entry ∈ aliasEntries profile) :
    entry.byteLength = (encodeChars entry.characters).length := by
  rw [(entry_of_mem h).2, spelling_eq h, size_eq_length, toList_toUTF8_ofList]

theorem filter_bucket (profile : LanguageProfile) {b : Nat} {spelling : String}
    (hb : inBucket b (aliasEntryOf "" spelling) = true) :
    (insertEach AliasBefore ((aliasEntries profile).filter (inBucket b))).filter
        (·.spelling == spelling) =
      (aliasEntries profile).filter (·.spelling == spelling) := by
  have hmem : ∀ entry ∈ insertEach AliasBefore ((aliasEntries profile).filter (inBucket b)),
      entry ∈ aliasEntries profile :=
    fun entry hentry => (List.mem_filter.1 (mem_insertEach.1 hentry)).1
  -- In the table the spelling decides the size, so the order does not tell these apart.
  have hclass : ∀ entry ∈ aliasEntries profile, (entry.spelling == spelling) =
      (entry.spelling == spelling && entry.byteLength == spelling.toUTF8.size) := by
    intro entry hentry
    by_cases heq : entry.spelling = spelling
    · rw [(entry_of_mem hentry).2, heq, beq_self_eq_true, beq_self_eq_true]
      rfl
    · rw [beq_eq_false_iff_ne.2 heq, Bool.false_and]
  rw [List.filter_congr (fun entry hentry => hclass entry (hmem entry hentry)),
    filter_insertEach, List.filter_congr hclass, List.filter_filter]
  · refine List.filter_congr fun entry hentry => ?_
    by_cases heq : entry.spelling = spelling
    · have hin : inBucket b entry = true := by
        unfold inBucket at hb ⊢
        rw [(entry_of_mem hentry).1, heq]
        exact hb
      rw [hin, Bool.and_true]
    · rw [beq_eq_false_iff_ne.2 heq, Bool.false_and, Bool.false_and]
  · intro first second existing hfirst hsecond
    rw [Bool.and_eq_true, beq_iff_eq, beq_iff_eq] at hfirst hsecond
    rw [aliasBefore_iff, aliasBefore_iff, hfirst.1, hfirst.2, hsecond.1, hsecond.2]

theorem length_le_encodeChars (cs : List Char) : cs.length ≤ (encodeChars cs).length := by
  induction cs with
  | nil => exact le_rfl
  | cons c cs ih =>
    rw [encodeChars_cons, List.length_append, String.length_utf8EncodeChar, List.length_cons]
    have hpos := utf8Size_pos c
    omega

theorem aliasesAt_eq (h : Layout cs bytes chars) (profile : LanguageProfile) {c : Char}
    (hget : cs[i]? = some c) :
    aliasesAt (buildAliasBuckets profile) chars i =
      insertEach AliasBefore ((aliasEntries profile).filter (inBucket (bucketIndex c))) := by
  unfold aliasesAt
  rw [h.charAt?_eq, hget, buildAliasBuckets_eq]
  exact (getD_foldl_addEntry _ (bucketIndex_lt c)).2

theorem head?_of_spelledAt {entry : AliasEntry} (h : SpelledAt cs i entry)
    (hpos : 0 < entry.characters.length) : entry.characters.head? = cs[i]? := by
  have hget : (between cs i (i + entry.characters.length))[0]? = cs[i + 0]? :=
    getElem?_between (Nat.add_lt_add_left hpos i)
  rw [h.2] at hget
  rw [List.head?_eq_getElem?, hget, Nat.add_zero]

theorem exists_entry_of_aliasAt {profile : LanguageProfile} {canonical : String}
    (halias : AliasAt profile cs i canonical n) :
    ∃ entry ∈ aliasEntries profile, SpelledAt cs i entry ∧ entry.characters.length = n := by
  have hhead := halias.canonical
  rw [canonicalFor?_eq] at hhead
  obtain ⟨entry, hentry, -⟩ := Option.map_eq_some_iff.1 hhead
  obtain ⟨hmem, hspelling⟩ := List.mem_filter.1 (List.mem_of_mem_head? hentry)
  rw [beq_iff_eq] at hspelling
  have hchars : entry.characters = between cs i (i + n) := by
    rw [(entry_of_mem hmem).1, hspelling, String.toList_ofList]
  have hlength : entry.characters.length = n := by
    rw [hchars, length_between halias.le_length, Nat.add_sub_cancel_left]
  refine ⟨entry, hmem, ⟨?_, ?_⟩, hlength⟩
  · rw [hlength]
    exact halias.le_length
  · rw [hlength, hchars]

theorem length_le_of_byteLength_le {profile : LanguageProfile} {entry longer : AliasEntry}
    (hentry : entry ∈ aliasEntries profile) (hlonger : longer ∈ aliasEntries profile)
    (hspelled : SpelledAt cs i entry) (hspelled' : SpelledAt cs i longer)
    (hle : longer.byteLength ≤ entry.byteLength) :
    longer.characters.length ≤ entry.characters.length := by
  by_contra hlt
  rw [Nat.not_le] at hlt
  have hsplit := between_append cs (Nat.le_add_right i entry.characters.length)
    (Nat.add_le_add_left hlt.le i)
  rw [hspelled.2, hspelled'.2] at hsplit
  have hrest := length_le_encodeChars
    (between cs (i + entry.characters.length) (i + longer.characters.length))
  rw [length_between hspelled'.1] at hrest
  rw [byteLength_eq hentry, byteLength_eq hlonger, ← hsplit, encodeChars_append,
    List.length_append] at hle
  omega

theorem longestAliasMatch?_eq_some (h : Layout cs bytes chars) {profile : LanguageProfile}
    {found : String × Nat}
    (hfound : longestAliasMatch? (buildAliasBuckets profile) chars i = some found) :
    AliasAt profile cs i found.1 found.2 ∧
      ∀ canonical n, AliasAt profile cs i canonical n → n ≤ found.2 := by
  unfold longestAliasMatch? at hfound
  obtain ⟨front, entry, back, hbucket, hentry, hnone⟩ := List.findSome?_eq_some_iff.1 hfound
  have hspelled : SpelledAt cs i entry := by
    by_contra hnot
    rw [if_neg fun hmatch => hnot ((matchesAliasAt_iff h entry i).1 hmatch)] at hentry
    cases hentry
  rw [if_pos ((matchesAliasAt_iff h entry i).2 hspelled)] at hentry
  obtain rfl := Option.some.inj hentry
  have hfront : ∀ e ∈ front, ¬ SpelledAt cs i e := by
    intro e he hspelled'
    have hno := hnone e he
    rw [if_pos ((matchesAliasAt_iff h e i).2 hspelled')] at hno
    cases hno
  obtain ⟨c, hget⟩ : ∃ c, cs[i]? = some c := by
    cases hget : cs[i]? with
    | some c => exact ⟨c, rfl⟩
    | none =>
      unfold aliasesAt at hbucket
      rw [h.charAt?_eq, hget] at hbucket
      exact absurd hbucket.symm (by simp)
  rw [aliasesAt_eq h profile hget] at hbucket
  have hmem : ∀ e ∈ front ++ entry :: back,
      e ∈ aliasEntries profile ∧ inBucket (bucketIndex c) e = true := by
    intro e he
    rw [← hbucket] at he
    exact List.mem_filter.1 (mem_insertEach.1 he)
  obtain ⟨htable, hin⟩ := hmem entry (List.mem_append_right _ List.mem_cons_self)
  have hpos : 0 < entry.characters.length := by
    refine List.length_pos_iff.2 fun hnil => ?_
    unfold inBucket at hin
    rw [hnil] at hin
    cases hin
  refine ⟨⟨hpos, hspelled.1, ?_⟩, ?_⟩
  · -- The entry is the first of the table with its spelling.
    have hbucketed : inBucket (bucketIndex c) (aliasEntryOf "" entry.spelling) = true := by
      unfold inBucket at hin ⊢
      rw [(entry_of_mem htable).1] at hin
      exact hin
    have hsame := filter_bucket profile hbucketed
    have hempty : front.filter (·.spelling == entry.spelling) = [] := by
      refine List.filter_eq_nil_iff.2 fun e he heq => hfront e he ?_
      have hchars : e.characters = entry.characters := by
        have htable' := (hmem e (List.mem_append_left _ he)).1
        rw [(entry_of_mem htable').1, (entry_of_mem htable).1, beq_iff_eq.1 heq]
      unfold SpelledAt
      rw [hchars]
      exact hspelled
    rw [hbucket, List.filter_append, hempty, List.nil_append, List.filter_cons,
      if_pos (beq_self_eq_true _)] at hsame
    rw [hspelled.2, ← spelling_eq htable, canonicalFor?_eq, ← hsame]
    rfl
  -- The bucket has every alias that stands here, and the longer ones come first.
  · intro canonical n halias
    obtain ⟨e, he, hspelled', rfl⟩ := exists_entry_of_aliasAt halias
    have hhead := head?_of_spelledAt hspelled' halias.pos
    have hplaced : e ∈ front ++ entry :: back := by
      rw [← hbucket, mem_insertEach, List.mem_filter]
      refine ⟨he, ?_⟩
      unfold inBucket
      rw [hhead, hget]
      exact beq_self_eq_true _
    rcases List.mem_append.1 hplaced with hmem' | hmem'
    · exact absurd hspelled' (hfront e hmem')
    · rcases List.mem_cons.1 hmem' with rfl | hback
      · exact le_rfl
      · have hordered := ordered_insertEach AliasBefore
          ((aliasEntries profile).filter (inBucket (bucketIndex c)))
        rw [hbucket] at hordered
        have hafter := (List.pairwise_cons.1 (List.pairwise_append.1 hordered).2.1).1 e hback
        refine length_le_of_byteLength_le htable he hspelled hspelled' ?_
        exact Nat.le_of_not_lt fun hlt => hafter (aliasBefore_iff.2 (Or.inl hlt))

theorem isSome_longestAliasMatch? (h : Layout cs bytes chars) {profile : LanguageProfile}
    {canonical : String} {n : Nat} (halias : AliasAt profile cs i canonical n) :
    (longestAliasMatch? (buildAliasBuckets profile) chars i).isSome = true := by
  obtain ⟨e, he, hspelled, hlength⟩ := exists_entry_of_aliasAt halias
  have hhead := head?_of_spelledAt hspelled (hlength ▸ halias.pos)
  have hlt : i < cs.length := (Nat.lt_add_of_pos_right halias.pos).trans_le halias.le_length
  obtain ⟨c, hget⟩ : ∃ c, cs[i]? = some c := ⟨cs[i], List.getElem?_eq_getElem hlt⟩
  unfold longestAliasMatch?
  rw [aliasesAt_eq h profile hget, List.findSome?_isSome_iff]
  refine ⟨e, ?_, ?_⟩
  · rw [mem_insertEach, List.mem_filter]
    refine ⟨he, ?_⟩
    unfold inBucket
    rw [hhead, hget]
    exact beq_self_eq_true _
  · rw [if_pos ((matchesAliasAt_iff h e i).2 hspelled)]
    rfl

theorem longestAliasMatch?_iff (h : Layout cs bytes chars) (profile : LanguageProfile) (i : Nat)
    (canonical : String) (n : Nat) :
    longestAliasMatch? (buildAliasBuckets profile) chars i = some (canonical, n) ↔
      AliasAt profile cs i canonical n ∧
        ∀ canonical' m, AliasAt profile cs i canonical' m → m ≤ n := by
  constructor
  · exact fun hfound => longestAliasMatch?_eq_some h hfound
  · rintro ⟨halias, hlongest⟩
    have hsome := isSome_longestAliasMatch? h halias
    obtain ⟨found, hfound⟩ := Option.isSome_iff_exists.1 hsome
    obtain ⟨halias', hlongest'⟩ := longestAliasMatch?_eq_some h hfound
    have hn : found.2 = n := le_antisymm (hlongest _ _ halias') (hlongest' _ _ halias)
    have hcanonical := halias'.canonical
    rw [hn, halias.canonical] at hcanonical
    rw [hfound, ← hn, Option.some.inj hcanonical]

/-- In the characters of a text the bucket lookup is the plain one: it finds the longest stretch
with a canonical spelling. -/
theorem longestAliasMatch?_text (profile : LanguageProfile) (text : String) (i : Nat)
    (canonical : String) (n : Nat) :
    longestAliasMatch? (buildAliasBuckets profile) (decodeChars text.toUTF8) i =
        some (canonical, n) ↔
      AliasAt profile text.toList i canonical n ∧
        ∀ canonical' m, AliasAt profile text.toList i canonical' m → m ≤ n := by
  have hbytes : text.toUTF8.data.toList = encodeChars text.toList := by
    have hencode := toList_toUTF8_ofList text.toList
    rwa [String.ofList_toList] at hencode
  exact longestAliasMatch?_iff (layout_of_bytes hbytes) profile i canonical n

end MirrorsCore.Tla
