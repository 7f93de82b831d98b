import Mathlib
import MirrorsCore.Tla.AliasFacts
import MirrorsCore.Tla.Spelling
import MirrorsCore.Tla.TriviaSteps

/-! What the scanners of one token consume. The pieces of a scan stand one behind
the other; a scan without diagnostics stays on one line, and each of its pieces
has the text that its kind promises. -/

namespace MirrorsCore.Tla
open Lib

/-- No alias has a line break in it. -/
def LanguageProfile.OneLineAliases (profile : LanguageProfile) : Prop :=
  ∀ group ∈ profile.symbols, ∀ spelling ∈ group.spellings, '\n' ∉ spelling.toList

/-- A context over the bytes of a text, with the buckets of its profile. -/
structure LexContext.Over (cs : List Char) (context : LexContext) : Prop where
  layout : Layout cs context.bytes context.chars
  buckets : context.buckets = buildAliasBuckets context.profile.toLanguageProfile
  aliases : context.profile.toLanguageProfile.OneLineAliases

def Contiguous : Nat → Nat → List TokenPiece → Prop
  | i, k, [] => i = k
  | i, k, piece :: rest =>
      piece.startIndex = i ∧ i ≤ piece.stopIndex ∧ Contiguous piece.stopIndex k rest

/-- A text that its kind promises, or a scalar as it stands. -/
def Spelled (profile : LexicalProfile) (kind : TokenKind) (text : String) : Prop :=
  Spells profile kind text ∨ RawScalar profile.toLanguageProfile kind text

/-- A piece with the text that its kind promises. -/
def PieceSpells (cs : List Char) (profile : LexicalProfile) (piece : TokenPiece) : Prop :=
  Spelled profile piece.kind (String.ofList (between cs piece.startIndex piece.stopIndex))

structure TokenScan.Sound (cs : List Char) (profile : LexicalProfile) (i : Nat)
    (scan : TokenScan) : Prop where
  nonempty : scan.pieces ≠ []
  contiguous : Contiguous i scan.stopIndex scan.pieces
  le_length : scan.stopIndex ≤ cs.length
  errors : OnlyErrors scan.diagnostics
  oneLine : scan.diagnostics = [] → '\n' ∉ between cs i scan.stopIndex
  spells : scan.diagnostics = [] → ∀ piece ∈ scan.pieces, PieceSpells cs profile piece

variable {cs : List Char} {context : LexContext} {i j k : Nat} {c : Char}

theorem Contiguous.append {front back : List TokenPiece} (h : Contiguous i j front)
    (h' : Contiguous j k back) : Contiguous i k (front ++ back) := by
  induction front generalizing i with
  | nil =>
    obtain rfl : i = j := h
    exact h'
  | cons piece front ih =>
    obtain ⟨hstart, hle, hrest⟩ := h
    exact ⟨hstart, hle, ih hrest⟩

theorem Contiguous.le {pieces : List TokenPiece} (h : Contiguous i k pieces) : i ≤ k := by
  induction pieces generalizing i with
  | nil => exact le_of_eq h
  | cons piece rest ih =>
    obtain ⟨-, hle, hrest⟩ := h
    exact hle.trans (ih hrest)

namespace LexContext.Over

theorem textBetween (h : context.Over cs) (i j : Nat) :
    context.textBetween i j = String.ofList (between cs i j) :=
  h.layout.slice_eq i j

theorem charsBetween (h : context.Over cs) (i j : Nat) :
    charsBetween context.chars i j = between cs i j := by
  have hchars : context.chars.map SourceChar.character = cs := by
    refine List.ext_getElem? fun n => ?_
    rw [List.getElem?_map, h.layout.getElem? n, Option.map_map]
    exact Option.map_id'
  unfold Tla.charsBetween between
  rw [List.map_take, List.map_drop, hchars]

theorem longestAlias (h : context.Over cs) {found : String × Nat}
    (hfound : longestAliasMatch? context.buckets context.chars i = some found) :
    AliasAt context.profile.toLanguageProfile cs i found.1 found.2 := by
  rw [h.buckets] at hfound
  exact (longestAliasMatch?_eq_some h.layout hfound).1

theorem noAlias (h : context.Over cs)
    (hnone : longestAliasMatch? context.buckets context.chars i = none) {canonical : String}
    {n : Nat} : ¬ AliasAt context.profile.toLanguageProfile cs i canonical n := fun halias => by
  have hsome := isSome_longestAliasMatch? h.layout halias
  rw [← h.buckets, hnone] at hsome
  cases hsome

end LexContext.Over

theorem not_mem_of_canonicalFor? {profile : LanguageProfile} (h : profile.OneLineAliases)
    {text canonical : String} (hcanonical : profile.canonicalFor? text = some canonical) :
    '\n' ∉ text.toList := by
  obtain ⟨group, hgroup, hmem, -⟩ := exists_spelling hcanonical
  exact h group hgroup text hmem

theorem AliasAt.oneLine {profile : LanguageProfile} (h : profile.OneLineAliases)
    {canonical : String} {n : Nat} (halias : AliasAt profile cs i canonical n) :
    OneLine cs i (i + n) := by
  refine ⟨Nat.le_add_right _ _, halias.le_length, ?_⟩
  have hbreak := not_mem_of_canonicalFor? h halias.canonical
  rwa [String.toList_ofList] at hbreak

/-! ### Single pieces -/

theorem sound_singlePiece {profile : LexicalProfile} {kind : TokenKind} (hline : OneLine cs i j)
    (hspells : Spells profile kind (String.ofList (between cs i j))) :
    (singlePiece kind i j).Sound cs profile i where
  nonempty := List.cons_ne_nil _ _
  contiguous := ⟨rfl, hline.le, rfl⟩
  le_length := hline.le_length
  errors := onlyErrors_nil
  oneLine := fun _ => hline.noBreak
  spells := fun _ piece hpiece => by
    rw [List.mem_singleton.1 hpiece]
    exact Or.inl hspells

/-- A reported scan promises nothing about its text. -/
theorem sound_reported {profile : LexicalProfile} {kind : TokenKind} {diagnostics : List Diagnostic}
    (hle : i ≤ j) (hlength : j ≤ cs.length) (herrors : OnlyErrors diagnostics)
    (hne : diagnostics ≠ []) :
    TokenScan.Sound cs profile i { pieces := [⟨kind, i, j⟩], stopIndex := j, diagnostics } where
  nonempty := List.cons_ne_nil _ _
  contiguous := ⟨rfl, hle, rfl⟩
  le_length := hlength
  errors := herrors
  oneLine := fun hnone => absurd hnone hne
  spells := fun hnone => absurd hnone hne

theorem sound_rejectedPiece {profile : LexicalProfile} {spelling : String}
    {diagnostic : Diagnostic} (hle : i ≤ j) (hlength : j ≤ cs.length)
    (herror : diagnostic.hasErrorSeverity = true) :
    (rejectedPiece spelling i j diagnostic).Sound cs profile i :=
  sound_reported hle hlength (onlyErrors_singleton herror) (List.cons_ne_nil _ _)

theorem spells_canonical {profile : LexicalProfile} {text canonical : String}
    (h : profile.canonicalFor? text = some canonical) :
    Spells profile (.symbol ⟨canonical⟩) text := by
  show canonical = (profile.canonicalFor? text).getD text
  rw [h, Option.getD_some]

/-- A text without a canonical spelling is its own. -/
theorem spells_self {profile : LexicalProfile} {text : String}
    (h : profile.canonicalFor? text = none) : Spells profile (.symbol ⟨text⟩) text := by
  show text = (profile.canonicalFor? text).getD text
  rw [h, Option.getD_none]

theorem sound_alias (h : context.Over cs) {found : String × Nat}
    (hfound : longestAliasMatch? context.buckets context.chars i = some found) :
    (singlePiece (.symbol ⟨found.1⟩) i (i + found.2)).Sound cs context.profile i := by
  have halias := h.longestAlias hfound
  exact sound_singlePiece (halias.oneLine h.aliases) (spells_canonical halias.canonical)

theorem scalarText_eq (h : context.Over cs) (hget : cs[i]? = some c) :
    scalarText context.chars i = String.ofList (between cs i (i + 1)) := by
  unfold scalarText
  rw [h.layout.charAt?_eq, hget, between_succ hget]
  rfl

theorem spells_scalarText (h : context.Over cs) (hget : cs[i]? = some c)
    (hnone : longestAliasMatch? context.buckets context.chars i = none) :
    Spells context.profile (.symbol ⟨scalarText context.chars i⟩)
      (String.ofList (between cs i (i + 1))) := by
  have hlt := (List.getElem?_eq_some_iff.1 hget).1
  rw [scalarText_eq h hget]
  refine spells_self ?_
  cases hcanonical : context.profile.canonicalFor? (String.ofList (between cs i (i + 1))) with
  | none => rfl
  | some canonical => exact absurd ⟨Nat.one_pos, hlt, hcanonical⟩ (h.noAlias hnone)

/-- The first scalar of an alias that is longer. -/
theorem rawScalar_of_alias (h : context.Over cs) (hget : cs[i]? = some c) {canonical : String}
    {n : Nat} (halias : AliasAt context.profile.toLanguageProfile cs i canonical n) (hn : 2 ≤ n) :
    RawScalar context.profile.toLanguageProfile (.symbol ⟨scalarText context.chars i⟩)
      (String.ofList (between cs i (i + 1))) := by
  rw [scalarText_eq h hget]
  obtain ⟨group, hgroup, hspelling, -⟩ := exists_spelling halias.canonical
  refine ⟨rfl, c, by rw [between_succ hget], Or.inr ⟨group, hgroup, _, hspelling, ?_, ?_⟩⟩
  · rw [String.toList_ofList, length_between halias.le_length]
    omega
  · rw [String.toList_ofList, List.head?_eq_getElem?, getElem?_between (by omega)]
    exact hget

/-! ### Operator runs -/

theorem ne_newline_of_isOperatorRunChar (h : isOperatorRunChar c = true) : c ≠ '\n' := by
  rintro rfl
  exact absurd h (by decide)

theorem maxOperatorRunStop_oneLine (h : context.Over cs) (hi : i ≤ cs.length) :
    OneLine cs i (maxOperatorRunStop context.chars i) := by
  obtain ⟨hle, hlength, hall, -⟩ := scan_spec
    (fun index => accepts context.chars isOperatorRunChar index &&
      !startsLineComment context.chars index)
    (fun c => c ≠ '\n') h.layout.length
    (fun k hk => by
      rw [Bool.and_eq_true, h.layout.accepts_eq, any_eq_true_iff] at hk
      obtain ⟨⟨c, hget, hc⟩, -⟩ := hk
      exact ⟨c, hget, ne_newline_of_isOperatorRunChar hc⟩) hi
  exact ⟨hle, hlength, fun hbreak => hall _ hbreak rfl⟩

structure RunSplit.Sound (cs : List Char) (profile : LexicalProfile) (i stop : Nat)
    (split : RunSplit) : Prop where
  le : split.index ≤ stop
  contiguous : Contiguous i split.index split.pieces
  spells : ∀ piece ∈ split.pieces, PieceSpells cs profile piece

theorem RunSplit.Sound.add {profile : LexicalProfile} {stop : Nat} {split : RunSplit}
    (hsplit : split.Sound cs profile i stop) {canonical : String} {n : Nat}
    (hle : split.index + n ≤ stop)
    (hspells : Spelled profile (.symbol ⟨canonical⟩)
      (String.ofList (between cs split.index (split.index + n)))) :
    (split.add canonical n).Sound cs profile i stop where
  le := hle
  contiguous := hsplit.contiguous.append ⟨rfl, Nat.le_add_right _ _, rfl⟩
  spells := by
    intro piece hpiece
    rcases List.mem_append.1 hpiece with hpiece | hpiece
    · exact hsplit.spells piece hpiece
    · rw [List.mem_singleton.1 hpiece]
      exact hspells

theorem sound_decomposeStep (h : context.Over cs) {stop : Nat} (hstop : stop ≤ cs.length)
    {split : RunSplit} (hsplit : split.Sound cs context.profile i stop)
    (hlt : split.index < stop) :
    (decomposeStep context stop split).Sound cs context.profile i stop ∧
      split.index < (decomposeStep context stop split).index := by
  have hget : cs[split.index]? = some (cs.get ⟨split.index, hlt.trans_le hstop⟩) :=
    List.getElem?_eq_getElem (hlt.trans_le hstop)
  unfold decomposeStep
  cases hfound : longestAliasMatch? context.buckets context.chars split.index with
  | none =>
    exact ⟨hsplit.add hlt (Or.inl (spells_scalarText h hget hfound)), Nat.lt_succ_self _⟩
  | some found =>
    have halias := h.longestAlias hfound
    dsimp only
    split_ifs with hfits
    · exact ⟨hsplit.add hfits (Or.inl (spells_canonical halias.canonical)),
        Nat.lt_add_of_pos_right halias.pos⟩
    · -- the alias goes on behind the run
      exact ⟨hsplit.add hlt (Or.inr (rawScalar_of_alias h hget halias (by omega))),
        Nat.lt_succ_self _⟩

theorem sound_decomposeRun? (h : context.Over cs) {stop : Nat} (hi : i ≤ stop)
    (hstop : stop ≤ cs.length) {pieces : List TokenPiece}
    (hpieces : decomposeRun? context i stop = some pieces) :
    pieces ≠ [] ∧ Contiguous i stop pieces ∧ ∀ piece ∈ pieces, PieceSpells cs context.profile piece := by
  have hloop := whileLoop_spec (RunSplit.Sound cs context.profile i stop)
    (fun split => stop - split.index) (fun split => split.index < stop)
    (decomposeStep context stop) { index := i } ?_ ⟨hi, rfl, nofun⟩
  · unfold decomposeRun? at hpieces
    generalize whileLoop _ _ _ _ = split at hloop hpieces
    obtain ⟨hsound, hdone⟩ := hloop
    dsimp only at hpieces
    split_ifs at hpieces with hmany
    obtain rfl := Option.some.inj hpieces
    rw [decide_eq_false_iff_not] at hdone
    have hfull : split.index = stop := le_antisymm hsound.le (Nat.le_of_not_lt hdone)
    refine ⟨fun hnil => ?_, hfull ▸ hsound.contiguous, hsound.spells⟩
    rw [hnil] at hmany
    exact absurd hmany (by decide)
  · intro split hsplit htest
    rw [decide_eq_true_eq] at htest
    obtain ⟨hstep, hmoved⟩ := sound_decomposeStep h hstop hsplit htest
    exact ⟨hstep, Nat.sub_lt_sub_left htest hmoved⟩

theorem ne_newline_of_isStructuralSymbol (h : isStructuralSymbol c = true) : c ≠ '\n' := by
  rintro rfl
  exact absurd h (by decide)

theorem sound_scanSymbol (h : context.Over cs) (hget : cs[i]? = some c) :
    (scanSymbol context i).Sound cs context.profile i := by
  have hi : i < cs.length := (List.getElem?_eq_some_iff.1 hget).1
  unfold scanSymbol
  cases hfound : longestAliasMatch? context.buckets context.chars i with
  | some found => exact sound_alias h hfound
  | none =>
    dsimp only
    split_ifs with hstructural
    · rw [h.layout.accepts_eq, hget] at hstructural
      exact sound_singlePiece (OneLine.step hget (ne_newline_of_isStructuralSymbol hstructural))
        (spells_scalarText h hget hfound)
    · have hline := maxOperatorRunStop_oneLine h hi.le
      have htext := h.textBetween i (maxOperatorRunStop context.chars i)
      cases hcanonical : context.profile.canonicalFor?
          (context.textBetween i (maxOperatorRunStop context.chars i)) with
      | some canonical =>
        rw [htext] at hcanonical
        exact sound_singlePiece hline (spells_canonical hcanonical)
      | none =>
        dsimp only
        cases hpieces : decomposeRun? context i (maxOperatorRunStop context.chars i) with
        | some pieces =>
          obtain ⟨hne, hcontiguous, hspells⟩ :=
            sound_decomposeRun? h hline.le hline.le_length hpieces
          exact ⟨hne, hcontiguous, hline.le_length, onlyErrors_nil, fun _ => hline.noBreak,
            fun _ => hspells⟩
        | none =>
          rw [htext] at hcanonical ⊢
          exact sound_singlePiece hline (spells_self hcanonical)

theorem sound_scanUnicode (h : context.Over cs) (hget : cs[i]? = some c) (line column : Nat) :
    (scanUnicode context c i line column).Sound cs context.profile i := by
  unfold scanUnicode
  cases hfound : longestAliasMatch? context.buckets context.chars i with
  | some found => exact sound_alias h hfound
  | none =>
    exact sound_rejectedPiece (Nat.le_succ i) (List.getElem?_eq_some_iff.1 hget).1 rfl

theorem lt_stopIndex_scanUnicode (h : context.Over cs) (line column : Nat) :
    i < (scanUnicode context c i line column).stopIndex := by
  unfold scanUnicode
  cases hfound : longestAliasMatch? context.buckets context.chars i with
  | some found => exact Nat.lt_add_of_pos_right (h.longestAlias hfound).pos
  | none => exact Nat.lt_succ_self i

/-! ### Strings -/

theorem StringBody.oneLine {body : List Char} (h : StringBody body) : '\n' ∉ body := by
  induction h with
  | nil => exact List.not_mem_nil
  | plain _ _ _ hc ih =>
    rw [List.mem_append, List.mem_singleton]
    exact fun hmem => hmem.elim ih hc.symm
  | escape _ hc ih =>
    rw [List.mem_append, List.mem_cons, List.mem_singleton]
    rintro (hmem | hmem | rfl)
    · exact ih hmem
    · exact absurd hmem (by decide)
    · exact absurd hc (by decide)

structure StringScan.Sound (cs : List Char) (i : Nat) (scan : StringScan) : Prop where
  le : i + 1 ≤ scan.index
  le_length : scan.index ≤ cs.length
  errors : OnlyErrors scan.diagnostics
  body : scan.diagnostics = [] → scan.closed = false → scan.index < cs.length →
    StringBody (between cs (i + 1) scan.index)
  closed : scan.diagnostics = [] → scan.closed = true →
    ∃ body, StringBody body ∧ between cs (i + 1) scan.index = body ++ ['"']

theorem between_snoc (hi : i ≤ j) (hget : cs[j]? = some c) :
    between cs i (j + 1) = between cs i j ++ [c] := by
  rw [← between_append cs hi (Nat.le_succ j), between_succ hget]

theorem sound_stringStep (h : context.Over cs) (line column : Nat) {scan : StringScan}
    (hscan : scan.Sound cs i) (hopen : scan.closed = false) (hlt : scan.index < cs.length) :
    (stringStep context i line column scan).Sound cs i ∧
      ((stringStep context i line column scan).lineBreak = true ∨
        scan.index < (stringStep context i line column scan).index) ∧
      scan.index ≤ (stringStep context i line column scan).index := by
  have hget : cs[scan.index]? = some cs[scan.index] := List.getElem?_eq_getElem hlt
  have hlater : i + 1 ≤ scan.index + 1 := hscan.le.trans (Nat.le_succ _)
  unfold stringStep
  dsimp only
  rw [h.layout.charAt?_eq, h.layout.charAt?_eq, hget]
  split_ifs with hescape hquote hbreak
  · rw [beq_iff_eq, Option.some.injEq] at hescape
    cases hnext : cs[scan.index + 1]? with
    | some escaped =>
      have hnext' := (List.getElem?_eq_some_iff.1 hnext).1
      have htext : between cs (i + 1) (scan.index + 2) =
          between cs (i + 1) scan.index ++ ['\\', escaped] := by
        rw [between_snoc hlater hnext, between_snoc hscan.le hget, hescape, List.append_assoc]
        rfl
      refine ⟨⟨hlater.trans (Nat.le_succ _), hnext', ?_, ?_, ?_⟩,
        Or.inr (Nat.lt_add_of_pos_right Nat.two_pos), Nat.le_add_right _ _⟩
      · dsimp only
        split_ifs
        · exact hscan.errors
        · exact hscan.errors.append (onlyErrors_singleton rfl)
      · intro hnone _ _
        dsimp only at hnone
        split_ifs at hnone with hsupported
        · dsimp only
          rw [htext]
          exact (hscan.body hnone hopen hlt).escape hsupported
        · exact absurd hnone (by simp)
      · exact fun _ hclosed => Bool.noConfusion (hopen.symm.trans hclosed)
    -- An escape at the end of the text: the string stays open.
    | none =>
      have hend : cs.length ≤ scan.index + 1 := List.getElem?_eq_none_iff.1 hnext
      refine ⟨⟨hlater, hlt, hscan.errors, fun _ _ hmore => ?_, ?_⟩,
        Or.inr (Nat.lt_succ_self _), Nat.le_succ _⟩
      · exact absurd hmore (Nat.not_lt_of_le hend)
      · exact fun _ hclosed => Bool.noConfusion (hopen.symm.trans hclosed)
  · rw [beq_iff_eq, Option.some.injEq] at hquote
    refine ⟨⟨hlater, hlt, hscan.errors, nofun, fun hnone _ => ?_⟩,
      Or.inr (Nat.lt_succ_self _), Nat.le_succ _⟩
    refine ⟨_, hscan.body hnone hopen hlt, ?_⟩
    dsimp only
    rw [between_snoc hscan.le hget, hquote]
  · exact ⟨⟨hscan.le, hscan.le_length, hscan.errors, hscan.body, hscan.closed⟩, Or.inl rfl, le_rfl⟩
  · rw [beq_iff_eq, Option.some.injEq] at hescape hquote hbreak
    refine ⟨⟨hlater, hlt, hscan.errors, fun hnone _ _ => ?_, ?_⟩,
      Or.inr (Nat.lt_succ_self _), Nat.le_succ _⟩
    · dsimp only
      rw [between_snoc hscan.le hget]
      exact (hscan.body hnone hopen hlt).plain hescape hquote hbreak
    · exact fun _ hclosed => Bool.noConfusion (hopen.symm.trans hclosed)

theorem sound_stringBody (h : context.Over cs) (hi : i < cs.length) (line column : Nat) :
    (stringBody context i line column).Sound cs i := by
  unfold stringBody
  refine (whileLoop_spec (StringScan.Sound cs i) _ _ _ { index := i + 1 } ?_
    ⟨le_rfl, hi, onlyErrors_nil, fun _ _ _ => ?_, nofun⟩).1
  · intro scan hscan htest
    rw [Bool.and_eq_true, Bool.and_eq_true, Bool.not_eq_true', Bool.not_eq_true',
      decide_eq_true_eq, h.layout.length] at htest
    obtain ⟨⟨hopen, hline⟩, hlt⟩ := htest
    obtain ⟨hsound, hmoved, hle⟩ := sound_stringStep h line column hscan hopen hlt
    refine ⟨hsound, ?_⟩
    have hone : (if scan.lineBreak then 0 else 1) = 1 :=
      if_neg fun hbroken => Bool.noConfusion (hline.symm.trans hbroken)
    rw [h.layout.length, hone]
    rcases hmoved with hbroken | hmoved
    · rw [if_pos hbroken]
      exact Nat.lt_succ_of_le (Nat.sub_le_sub_left hle _)
    · have hless := Nat.sub_lt_sub_left hlt hmoved
      split <;> omega
  · dsimp only
    rw [between_self]
    exact StringBody.nil

theorem sound_scanString (h : context.Over cs) (hget : cs[i]? = some '"') (line column : Nat) :
    (scanString context i line column).Sound cs context.profile i := by
  have hi : i < cs.length := (List.getElem?_eq_some_iff.1 hget).1
  have hscan := sound_stringBody h hi line column
  unfold scanString
  dsimp only
  generalize stringBody context i line column = scan at hscan ⊢
  have hle : i ≤ scan.index := (Nat.le_succ i).trans hscan.le
  split_ifs with hbreak hunclosed
  · exact sound_reported hle hscan.le_length (hscan.errors.append (onlyErrors_singleton rfl))
      (by simp)
  · exact sound_reported hle hscan.le_length (hscan.errors.append (onlyErrors_singleton rfl))
      (by simp)
  · rw [Bool.not_eq_true', Bool.not_eq_false] at hunclosed
    -- A closed string without a bad escape.
    have htext : scan.diagnostics = [] →
        ∃ body, StringBody body ∧ between cs i scan.index = '"' :: (body ++ ['"']) := by
      intro hnone
      obtain ⟨body, hbody, htext⟩ := hscan.closed hnone hunclosed
      refine ⟨body, hbody, ?_⟩
      rw [← between_append cs (Nat.le_succ i) hscan.le, between_succ hget, htext]
      rfl
    refine ⟨List.cons_ne_nil _ _, ⟨rfl, hle, rfl⟩, hscan.le_length, hscan.errors, fun hnone => ?_,
      fun hnone piece hpiece => ?_⟩
    · obtain ⟨body, hbody, htext⟩ := htext hnone
      dsimp only
      rw [htext, List.mem_cons, List.mem_append, List.mem_singleton]
      rintro (hmem | hmem | hmem)
      · exact absurd hmem (by decide)
      · exact hbody.oneLine hmem
      · exact absurd hmem (by decide)
    · obtain ⟨body, hbody, htext⟩ := htext hnone
      rw [List.mem_singleton.1 hpiece]
      refine Or.inl ⟨body, hbody, ?_⟩
      rw [String.toList_ofList, htext]

/-! ### Module lines -/

/-- A longest stretch of accepted scalars, on one line. -/
structure Run (cs : List Char) (accept : Char → Bool) (i j : Nat) : Prop where
  line : OneLine cs i j
  all : ∀ c ∈ between cs i j, accept c = true
  after : (cs[j]?).any accept = false

theorem run_runStop (h : Layout cs context.bytes context.chars) (accept : Char → Bool)
    (haccept : accept '\n' = false) (hi : i ≤ cs.length) :
    Run cs accept i (runStop accept context.chars i) := by
  obtain ⟨-, -, hall, hafter⟩ := runStop_spec h accept hi
  exact ⟨runStop_oneLine h haccept hi, hall, hafter⟩

theorem between_ne_nil (hlt : i < j) (hlength : j ≤ cs.length) : between cs i j ≠ [] := by
  intro hnil
  have hzero := length_between (i := i) hlength
  rw [hnil, List.length_nil] at hzero
  omega

theorem Run.eq_of_run {accept : Char → Bool} (h : Run cs accept i j) (h' : Run cs accept j k) :
    j = k := by
  by_contra hne
  have hlt : j < k := lt_of_le_of_ne h'.line.le hne
  have hget : cs[j]? = some (cs.get ⟨j, hlt.trans_le h'.line.le_length⟩) :=
    List.getElem?_eq_getElem (hlt.trans_le h'.line.le_length)
  have haccept := h'.all _ (mem_between_of_getElem? le_rfl hlt hget)
  have hafter := h.after
  rw [hget] at hafter
  exact Bool.noConfusion (haccept.symm.trans hafter)

theorem headerLine_of_runs {d k k' n n' t t' : Nat} (hdashes : Run cs (· == '-') i d)
    (hgap : Run cs isHorizontalSpace d k) (hkeyword : Run cs isAsciiIdentifierChar k k')
    (hgap' : Run cs isHorizontalSpace k' n) (hname : Run cs isAsciiIdentifierChar n n')
    (hgap'' : Run cs isHorizontalSpace n' t) (hdashes' : Run cs (· == '-') t t')
    (hlong : ¬ d - i < 4) (hmodule : String.ofList (between cs k k') = "MODULE")
    (hvalid : ModuleName.valid (String.ofList (between cs n n')) = true)
    (hlong' : ¬ t' - t < 4) :
    OneLine cs i t' ∧ HeaderLine (between cs i t') (String.ofList (between cs n n')) := by
  have hline₆ := hgap''.line.trans hdashes'.line
  have hline₅ := hname.line.trans hline₆
  have hline₄ := hgap'.line.trans hline₅
  have hline₃ := hkeyword.line.trans hline₄
  have hline₂ := hgap.line.trans hline₃
  refine ⟨hdashes.line.trans hline₂, between cs i d, between cs d k, between cs k' n,
    between cs n' t, between cs t t', ?_, fun c hc => beq_iff_eq.1 (hdashes.all c hc), hgap.all,
    ?_, hgap'.all, hvalid, hgap''.all, ?_, fun c hc => beq_iff_eq.1 (hdashes'.all c hc), ?_⟩
  · rw [length_between hdashes.line.le_length]
    omega
  · -- Without a gap the name would be part of the keyword.
    intro hnil
    have heq : k' = n := by
      by_contra hne
      exact between_ne_nil (lt_of_le_of_ne hgap'.line.le hne) hgap'.line.le_length hnil
    rw [← heq] at hname hvalid
    obtain rfl := hkeyword.eq_of_run hname
    rw [between_self] at hvalid
    exact absurd hvalid (by decide)
  · rw [length_between hdashes'.line.le_length]
    omega
  · rw [← hmodule, String.toList_ofList, String.toList_ofList,
      between_append cs hgap''.line.le hdashes'.line.le,
      between_append cs hname.line.le hline₆.le, between_append cs hgap'.line.le hline₅.le,
      between_append cs hkeyword.line.le hline₄.le, between_append cs hgap.line.le hline₃.le,
      between_append cs hdashes.line.le hline₂.le]

theorem moduleHeaderStop?_eq_some (h : Layout cs context.bytes context.chars) (hi : i ≤ cs.length)
    {stop : Nat} (hstop : moduleHeaderStop? context.chars context.bytes i = some stop) :
    OneLine cs i stop ∧ ∃ name, HeaderLine (between cs i stop) name := by
  unfold moduleHeaderStop? at hstop
  dsimp only at hstop
  rw [h.slice_eq, h.slice_eq] at hstop
  split_ifs at hstop with hdashes hempty hkeyword hname htrailing hend
  obtain rfl := Option.some.inj hstop
  rw [bne_iff_ne, not_not] at hkeyword
  rw [Bool.not_eq_true', Bool.not_eq_false] at hname
  have hrun₁ := run_runStop h (· == '-') (by decide) hi
  have hrun₂ := run_runStop h isHorizontalSpace (by decide) hrun₁.line.le_length
  have hrun₃ := run_runStop h isAsciiIdentifierChar (by decide) hrun₂.line.le_length
  have hrun₄ := run_runStop h isHorizontalSpace (by decide) hrun₃.line.le_length
  have hrun₅ := run_runStop h isAsciiIdentifierChar (by decide) hrun₄.line.le_length
  have hrun₆ := run_runStop h isHorizontalSpace (by decide) hrun₅.line.le_length
  have hrun₇ := run_runStop h (· == '-') (by decide) hrun₆.line.le_length
  obtain ⟨hline, hheader⟩ := headerLine_of_runs hrun₁ hrun₂ hrun₃ hrun₄ hrun₅ hrun₆ hrun₇ hdashes
    hkeyword hname htrailing
  exact ⟨hline, _, hheader⟩

theorem moduleEndStop?_eq_some (h : Layout cs context.bytes context.chars) (hi : i ≤ cs.length)
    {stop : Nat} (hstop : moduleEndStop? context.chars i = some stop) :
    OneLine cs i stop ∧ 4 ≤ (between cs i stop).length ∧ ∀ c ∈ between cs i stop, c = '=' := by
  unfold moduleEndStop? at hstop
  dsimp only at hstop
  split_ifs at hstop with hlong hend
  obtain rfl := Option.some.inj hstop
  have hrun := run_runStop h (· == '=') (by decide) hi
  refine ⟨hrun.line, ?_, fun c hc => beq_iff_eq.1 (hrun.all c hc)⟩
  rw [length_between hrun.line.le_length]
  omega

/-! ### Words -/

theorem prefixKeywordAt?_eq_some {profile : LexicalProfile} {spelling : String}
    {found : String × Nat} (hfound : profile.prefixKeywordAt? spelling = some found) :
    found.1 ∈ profile.prefixKeywords ∧ found.1.toList <+: spelling.toList ∧
      found.2 = found.1.toList.length := by
  unfold LexicalProfile.prefixKeywordAt? at hfound
  generalize profile.prefixKeywords = keywords at hfound ⊢
  induction keywords using List.reverseRecOn with
  | nil => cases hfound
  | append_singleton keywords candidate ih =>
    rw [List.foldl_append, List.foldl_cons, List.foldl_nil] at hfound
    dsimp only at hfound
    split_ifs at hfound with htaken
    · obtain rfl := Option.some.inj hfound
      rw [Bool.and_eq_true] at htaken
      exact ⟨List.mem_append_right _ List.mem_cons_self, String.startsWith_string_iff.1 htaken.1,
        rfl⟩
    · obtain ⟨hmem, hleading, hlength⟩ := ih hfound
      exact ⟨List.mem_append_left _ hmem, hleading, hlength⟩

theorem keyword?_eq_some {profile : LexicalProfile} {spelling canonical : String}
    (h : profile.keyword? spelling = some canonical) :
    spelling = canonical ∧ canonical ∈ profile.keywords := by
  unfold LexicalProfile.keyword? at h
  split_ifs at h with hmem
  obtain rfl := Option.some.inj h
  exact ⟨rfl, List.contains_iff_mem.1 hmem⟩

theorem run_wordRunStop (h : Layout cs context.bytes context.chars) (hi : i ≤ cs.length) :
    Run cs isAsciiIdentifierChar i (wordRunStop context.chars i) :=
  run_runStop h isAsciiIdentifierChar (by decide) hi

theorem valid_of_run (hrun : Run cs isAsciiIdentifierChar i j) (hget : cs[i]? = some c)
    (hc : isIdentifierStart c = true) :
    ModuleName.valid (String.ofList (between cs i j)) = true ∧ i < j := by
  have hword : isAsciiIdentifierChar c = true := by
    unfold isAsciiIdentifierChar
    rcases Bool.or_eq_true_iff.1 hc with hletter | hunderscore
    · rw [hletter]
      rfl
    · rw [hunderscore, Bool.or_true]
  have hlt : i < j := by
    refine hrun.line.le.lt_of_ne fun heq => ?_
    have hafter := hrun.after
    rw [← heq, hget] at hafter
    exact Bool.noConfusion (hword.symm.trans hafter)
  refine ⟨?_, hlt⟩
  have htext : between cs i j = c :: between cs (i + 1) j := by
    rw [← between_append cs (Nat.le_succ i) hlt, between_succ hget]
    rfl
  unfold ModuleName.valid
  rw [String.toList_ofList, htext]
  refine Bool.and_eq_true_iff.2 ⟨hc, List.all_eq_true.2 fun d hd => ?_⟩
  refine hrun.all d ?_
  rw [htext]
  exact List.mem_cons_of_mem _ hd

structure WordScan.Sound (cs : List Char) (i first : Nat) (scan : WordScan) : Prop where
  line : OneLine cs i scan.stop
  words : Words scan.parts.length (between cs i scan.stop)
  head : scan.parts.head? = some (i, first)
  single : scan.parts.length = 1 → scan.stop = first

theorem Words.length_pos {n : Nat} {text : List Char} (h : Words n text) : 0 < n := by
  cases h with
  | word _ => exact Nat.one_pos
  | join _ _ => exact Nat.succ_pos _

theorem sound_scanWordParts (h : context.Over cs) (hget : cs[i]? = some c)
    (hc : isIdentifierStart c = true) :
    (scanWordParts context.chars i).Sound cs i (wordRunStop context.chars i) := by
  have hrun := run_wordRunStop h.layout (List.getElem?_eq_some_iff.1 hget).1.le
  unfold scanWordParts
  refine (whileLoop_spec (WordScan.Sound cs i (wordRunStop context.chars i)) _ _ _
    { stop := wordRunStop context.chars i, parts := [(i, wordRunStop context.chars i)] } ?_
    ⟨hrun.line, Words.word (valid_of_run hrun hget hc).1, rfl, fun _ => rfl⟩).1
  intro scan hscan htest
  rw [Bool.and_eq_true, beq_iff_eq, h.layout.charAt?_eq, h.layout.accepts_eq,
    any_eq_true_iff] at htest
  obtain ⟨hmark, d, hnext, hd⟩ := htest
  have hrun := run_wordRunStop h.layout (List.getElem?_eq_some_iff.1 hnext).1.le
  obtain ⟨hvalid, hlt⟩ := valid_of_run hrun hnext hd
  have hline := (OneLine.step hmark (by decide)).trans hrun.line
  have htext : between cs i (wordRunStop context.chars (scan.stop + 1)) =
      between cs i scan.stop ++
        '!' :: between cs (scan.stop + 1) (wordRunStop context.chars (scan.stop + 1)) := by
    rw [← between_append cs hscan.line.le hline.le,
      ← between_append cs (Nat.le_succ scan.stop) hrun.line.le, between_succ hmark]
    rfl
  refine ⟨⟨hscan.line.trans hline, ?_, ?_, ?_⟩, ?_⟩
  · dsimp only
    rw [htext, List.length_append]
    exact hscan.words.join hvalid
  · dsimp only
    rw [List.head?_append, hscan.head]
    rfl
  · intro hsingle
    have hpos := hscan.words.length_pos
    dsimp only at hsingle
    rw [List.length_append, List.length_singleton] at hsingle
    omega
  · rw [h.layout.length]
    exact Nat.sub_lt_sub_left (List.getElem?_eq_some_iff.1 hmark).1
      ((Nat.lt_succ_self _).trans hlt)

theorem onlyErrors_identifierDiagnostics (line column : Nat) (parts : List (Nat × Nat)) :
    OnlyErrors (identifierDiagnostics context i line column parts) := by
  unfold identifierDiagnostics
  induction parts using List.reverseRecOn with
  | nil => exact onlyErrors_nil
  | append_singleton parts part ih =>
    rw [List.foldl_append, List.foldl_cons, List.foldl_nil]
    dsimp only
    split_ifs
    · exact ih.append (onlyErrors_singleton rfl)
    · exact ih

theorem take_between {n : Nat} (h : i + n ≤ j) : (between cs i j).take n = between cs i (i + n) := by
  unfold between
  rw [List.take_take, Nat.add_sub_cancel_left, min_eq_left (by omega)]

theorem sound_scanIdentifier (h : context.Over cs) (hget : cs[i]? = some c)
    (hc : isIdentifierStart c = true) (line column : Nat) :
    (scanIdentifier context i line column).Sound cs context.profile i := by
  have hword := sound_scanWordParts h hget hc
  have hrun := run_wordRunStop h.layout (List.getElem?_eq_some_iff.1 hget).1.le
  unfold scanIdentifier
  dsimp only
  generalize scanWordParts context.chars i = word at hword ⊢
  generalize wordRunStop context.chars i = first at hword hrun
  have hfirst : (word.parts.headD (i, i)).2 = first := by
    rw [List.headD_eq_head?_getD, hword.head]
    rfl
  rw [hfirst, h.textBetween]
  cases hleading : context.profile.prefixKeywordAt? (String.ofList (between cs i first)) with
  -- A leading keyword such as `WF_` takes its own letters only.
  | some found =>
    obtain ⟨hmem, hstart, hlength⟩ := prefixKeywordAt?_eq_some hleading
    rw [String.toList_ofList] at hstart
    have hfits : i + found.2 ≤ first := by
      have hle := hstart.length_le
      rw [length_between hrun.line.le_length, ← hlength] at hle
      have := hrun.line.le
      omega
    have htext : between cs i (i + found.2) = found.1.toList := by
      rw [← take_between hfits, hlength]
      exact (List.prefix_iff_eq_take.1 hstart).symm
    dsimp only
    rw [min_eq_left hfits]
    refine sound_singlePiece (hrun.line.left (Nat.le_add_right _ _) hfits) ⟨?_, Or.inr hmem⟩
    rw [htext, String.ofList_toList]
  | none =>
    dsimp only
    cases hkeyword : context.profile.keyword? (String.ofList (between cs i first)) with
    | some canonical =>
      obtain ⟨htext, hmem⟩ := keyword?_eq_some hkeyword
      exact sound_singlePiece hrun.line ⟨htext, Or.inl hmem⟩
    | none =>
      refine ⟨List.cons_ne_nil _ _, ⟨rfl, hword.line.le, rfl⟩, hword.line.le_length,
        onlyErrors_identifierDiagnostics _ _ _, fun _ => hword.line.noBreak, fun _ piece hpiece => ?_⟩
      rw [List.mem_singleton.1 hpiece]
      unfold PieceSpells
      dsimp only
      have hpos := hword.words.length_pos
      split_ifs with hmany
      · refine Or.inl ⟨_, hmany, ?_⟩
        rw [String.toList_ofList]
        exact hword.words
      · have hsingle : word.parts.length = 1 := by omega
        have hstop := hword.single hsingle
        rw [hstop]
        exact Or.inl ⟨(valid_of_run hrun hget hc).1, hkeyword, hleading⟩

/-! ### Numbers -/

theorem radixPrefix?_eq_some (h : context.Over cs) (hget : cs[i]? = some '\\') {radix : Nat}
    (hradix : radixPrefix? context.chars i = some radix) :
    radix ∈ [2, 8, 10, 16] ∧ OneLine cs i (i + 2) ∧ between cs i (i + 2) = radixMark radix ∧
      ∃ digit, cs[i + 2]? = some digit ∧ isRadixDigit radix digit = true := by
  unfold radixPrefix? at hradix
  rw [h.layout.charAt?_eq, h.layout.charAt?_eq] at hradix
  cases hmark : cs[i + 1]? with
  | none =>
    rw [hmark] at hradix
    cases hradix
  | some mark =>
    cases hdigit : cs[i + 2]? with
    | none =>
      rw [hmark, hdigit] at hradix
      cases hradix
    | some digit =>
      rw [hmark, hdigit] at hradix
      dsimp only at hradix
      have htext : between cs i (i + 2) = ['\\', mark] := by
        rw [between_snoc (Nat.le_succ i) hmark, between_succ hget]
        rfl
      rw [htext]
      split_ifs at hradix with hoctal hhex hbinary
      · rw [Bool.and_eq_true, beq_iff_eq] at hoctal
        obtain ⟨rfl, hdigit'⟩ := hoctal
        obtain rfl := Option.some.inj hradix
        exact ⟨by decide, oneLine_two hget hmark (by decide) (by decide), rfl, digit, rfl, hdigit'⟩
      · rw [Bool.and_eq_true, beq_iff_eq] at hhex
        obtain ⟨rfl, hdigit'⟩ := hhex
        obtain rfl := Option.some.inj hradix
        exact ⟨by decide, oneLine_two hget hmark (by decide) (by decide), rfl, digit, rfl, hdigit'⟩
      · rw [Bool.and_eq_true, beq_iff_eq] at hbinary
        obtain ⟨rfl, hdigit'⟩ := hbinary
        obtain rfl := Option.some.inj hradix
        exact ⟨by decide, oneLine_two hget hmark (by decide) (by decide), rfl, digit, rfl, hdigit'⟩

theorem isRadixDigit_newline (radix : Nat) : isRadixDigit radix '\n' = false := by
  unfold isRadixDigit
  split_ifs <;> decide

theorem lt_of_run {accept : Char → Bool} (hrun : Run cs accept i j) (hget : cs[i]? = some c)
    (hc : accept c = true) : i < j := by
  refine hrun.line.le.lt_of_ne fun heq => ?_
  have hafter := hrun.after
  rw [← heq, hget] at hafter
  exact Bool.noConfusion (hc.symm.trans hafter)

theorem sound_scanRadixNumber (h : context.Over cs) (hget : cs[i]? = some '\\') {radix : Nat}
    (hradix : radixPrefix? context.chars i = some radix) (line column : Nat) :
    (scanRadixNumber context i line column radix).Sound cs context.profile i := by
  obtain ⟨hmem, hmark, htext, digit, hdigit, hfirst⟩ := radixPrefix?_eq_some h hget hradix
  have hrun := run_runStop h.layout (isRadixDigit radix) (isRadixDigit_newline radix)
    hmark.le_length
  have hline := hmark.trans hrun.line
  unfold scanRadixNumber
  dsimp only
  rw [h.charsBetween]
  generalize runStop (isRadixDigit radix) context.chars (i + 2) = stop at hrun hline ⊢
  split_ifs with hbad hmany
  · exact sound_rejectedPiece hline.le hline.le_length rfl
  · exact sound_rejectedPiece hline.le hline.le_length rfl
  · refine sound_singlePiece hline ?_
    have hdigits : ∀ d ∈ between cs (i + 2) stop, (radixDigitValue? radix d).isSome = true := by
      intro d hd
      rw [List.any_eq_true] at hbad
      by_contra hnone
      refine hbad ⟨d, hd, ?_⟩
      rw [← Option.not_isSome, Bool.eq_false_of_not_eq_true hnone]
      rfl
    have hinteger := integerText_of_digits hmem
      (between_ne_nil (lt_of_run hrun hdigit hfirst) hline.le_length) hdigits
    rw [← htext, between_append cs hmark.le hrun.line.le] at hinteger
    show IntegerText (String.ofList (between cs i stop)).toList _
    rw [String.toList_ofList]
    exact hinteger

theorem unsupportedStop?_eq_some (h : Layout cs context.bytes context.chars) {stop : Nat}
    (hstop : unsupportedStop? context.chars i = some stop) : i ≤ stop ∧ stop ≤ cs.length := by
  have hdigits : ∀ k, accepts context.chars isAsciiDigit k = true →
      k + 1 ≤ runStop isAsciiDigit context.chars (k + 1) ∧
        runStop isAsciiDigit context.chars (k + 1) ≤ cs.length := by
    intro k hk
    rw [h.accepts_eq, any_eq_true_iff] at hk
    obtain ⟨c, hget, -⟩ := hk
    obtain ⟨hle, hlength, -⟩ := runStop_spec h isAsciiDigit (List.getElem?_eq_some_iff.1 hget).1
    exact ⟨hle, hlength⟩
  unfold unsupportedStop? at hstop
  split_ifs at hstop with hfraction hexponent
  · rw [Bool.and_eq_true] at hfraction
    obtain ⟨hle, hlength⟩ := hdigits _ hfraction.2
    obtain rfl := Option.some.inj hstop
    exact ⟨le_trans (by omega) hle, hlength⟩
  all_goals
    dsimp only at hstop
    split_ifs at hstop with hdigit
    obtain ⟨hle, hlength⟩ := hdigits _ hdigit
    obtain rfl := Option.some.inj hstop
    exact ⟨le_trans (by omega) hle, hlength⟩

theorem sound_scanDecimal (h : context.Over cs) (hget : cs[i]? = some c)
    (hc : isAsciiDigit c = true) (line column : Nat) :
    (scanDecimal context i line column).Sound cs context.profile i := by
  have hrun := run_runStop h.layout isAsciiDigit (by decide)
    (List.getElem?_eq_some_iff.1 hget).1.le
  unfold scanDecimal
  dsimp only
  rw [h.charsBetween]
  generalize runStop isAsciiDigit context.chars i = stop at hrun ⊢
  cases hunsupported : unsupportedStop? context.chars stop with
  | some stop' =>
    obtain ⟨hle, hlength⟩ := unsupportedStop?_eq_some h.layout hunsupported
    exact sound_rejectedPiece (hrun.line.le.trans hle) hlength rfl
  | none =>
    dsimp only
    split_ifs with hmany
    · exact sound_rejectedPiece hrun.line.le hrun.line.le_length rfl
    · refine sound_singlePiece hrun.line ?_
      have hinteger : IntegerText (radixMark 10 ++ between cs i stop)
          (foldRadixDigits 10 (between cs i stop)) := integerText_of_digits (by decide)
        (between_ne_nil (lt_of_run hrun hget hc) hrun.line.le_length)
        (fun d hd => isSome_radixDigitValue?_of_isAsciiDigit (hrun.all d hd))
      show IntegerText (String.ofList (between cs i stop)).toList _
      rw [String.toList_ofList]
      exact hinteger

/-! ### One token -/

theorem sound_scanBackslash (h : context.Over cs) (hget : cs[i]? = some '\\')
    (line column : Nat) :
    (scanBackslash context i line column).Sound cs context.profile i := by
  unfold scanBackslash
  cases hradix : radixPrefix? context.chars i with
  | some radix => exact sound_scanRadixNumber h hget hradix line column
  | none =>
    dsimp only
    split_ifs with hword
    · have hrun := run_wordRunStop h.layout (List.getElem?_eq_some_iff.1 hget).1
      have hline := (OneLine.step hget (by decide)).trans hrun.line
      refine sound_singlePiece hline ?_
      rw [h.textBetween i (wordRunStop context.chars (i + 1))]
      rfl
    · exact sound_scanSymbol h hget

theorem sound_scanTokenAt (h : context.Over cs) (hget : cs[i]? = some c) (line column : Nat) :
    (scanTokenAt context c i line column).Sound cs context.profile i := by
  have hi : i ≤ cs.length := (List.getElem?_eq_some_iff.1 hget).1.le
  unfold scanTokenAt
  dsimp only
  split_ifs with hunicode hquote hheader hend hword hdigit hbackslash
  · exact sound_scanUnicode h hget line column
  · rw [beq_iff_eq] at hquote
    exact sound_scanString h (hquote ▸ hget) line column
  · cases hstop : moduleHeaderStop? context.chars context.bytes i with
    | none => exact sound_scanSymbol h hget
    | some stop =>
      obtain ⟨hline, name, hname⟩ := moduleHeaderStop?_eq_some h.layout hi hstop
      refine sound_singlePiece hline ⟨name, ?_⟩
      rw [String.toList_ofList]
      exact hname
  · cases hstop : moduleEndStop? context.chars i with
    | none => exact sound_scanSymbol h hget
    | some stop =>
      obtain ⟨hline, hlong, hall⟩ := moduleEndStop?_eq_some h.layout hi hstop
      refine sound_singlePiece hline ?_
      show 4 ≤ (String.ofList (between cs i stop)).toList.length ∧
        ∀ c ∈ (String.ofList (between cs i stop)).toList, c = '='
      rw [String.toList_ofList]
      exact ⟨hlong, hall⟩
  · exact sound_scanIdentifier h hget hword line column
  · exact sound_scanDecimal h hget hdigit line column
  · rw [beq_iff_eq] at hbackslash
    exact sound_scanBackslash h (hbackslash ▸ hget) line column
  · exact sound_scanSymbol h hget

theorem sound_scanToken (h : context.Over cs) (hget : cs[i]? = some c) (hc : c ≠ '\n')
    (line column : Nat) :
    (scanToken context c i line column).Sound cs context.profile i ∧
      i < (scanToken context c i line column).stopIndex := by
  have hscan := sound_scanTokenAt h hget line column
  unfold scanToken
  dsimp only
  split_ifs with hmoved
  · exact ⟨hscan, hmoved⟩
  · have hline := OneLine.step hget hc
    refine ⟨⟨List.cons_ne_nil _ _, ⟨rfl, hline.le, rfl⟩, hline.le_length, hscan.errors,
      fun _ => hline.noBreak, fun _ piece hpiece => ?_⟩, Nat.lt_succ_self _⟩
    rw [List.mem_singleton.1 hpiece]
    refine Or.inr ⟨?_, c, ?_, Or.inl (Nat.le_of_not_lt fun hunicode => hmoved ?_)⟩
    · dsimp only
      rw [between_succ hget]
    · dsimp only
      rw [between_succ hget]
    · rw [scanTokenAt, if_pos hunicode]
      exact lt_stopIndex_scanUnicode h line column

end MirrorsCore.Tla
