import Mathlib
import MirrorsCore.Tla.Layout
import MirrorsCore.Tla.Spelling

/-! What the scanner of trivia consumes. Its items are stretches of the text, in
order and without gaps, and where it reports nothing each item has the text of
its kind. -/

namespace MirrorsCore.Tla
open Lib

variable {cs : List Char} {bytes : ByteArray} {chars : List SourceChar} {i j k : Nat} {c : Char}

def OnlyErrors (diagnostics : List Diagnostic) : Prop :=
  ∀ d ∈ diagnostics, d.hasErrorSeverity = true

theorem onlyErrors_nil : OnlyErrors [] := nofun

theorem onlyErrors_singleton {d : Diagnostic} (h : d.hasErrorSeverity = true) :
    OnlyErrors [d] := by
  intro d' hd'
  rw [List.mem_singleton.1 hd']
  exact h

theorem OnlyErrors.append {front back : List Diagnostic} (h : OnlyErrors front)
    (h' : OnlyErrors back) : OnlyErrors (front ++ back) := by
  intro d hd
  rcases List.mem_append.1 hd with hd | hd
  · exact h d hd
  · exact h' d hd

/-! ### Trivia -/

def triviaTile (item : Trivia) : String × SourceRange := (item.spelling, item.range)

/-- A trivia run from `lo`; its positions are exact if those of its start are. -/
structure TriviaRun.Sound (cs : List Char) (lo : Nat) (exact : Prop) (run : TriviaRun) : Prop where
  le : lo ≤ run.index
  le_length : run.index ≤ cs.length
  position : exact → (run.line, run.column) = lineColumn cs run.index
  tiles : exact → Tiles cs lo run.index (run.items.map triviaTile)
  errors : OnlyErrors run.diagnostics
  stopped : run.scanning = false → cs[run.index]? ≠ some '\n'

theorem triviaTile_triviaItem (h : Layout cs bytes chars) {kind : TriviaKind}
    {note? : Option (String × String)} {start stop : Nat × Nat × Nat}
    (hstart : (start.2.1, start.2.2) = lineColumn cs start.1)
    (hstop : (stop.2.1, stop.2.2) = lineColumn cs stop.1) :
    triviaTile (triviaItem bytes chars kind note? start stop) =
      (String.ofList (between cs start.1 stop.1),
        ⟨positionAt cs start.1, positionAt cs stop.1⟩) := by
  unfold triviaTile triviaItem positionAt
  dsimp only
  rw [h.slice_eq, h.byteOffsetAt_eq, h.byteOffsetAt_eq, ← hstart, ← hstop]

theorem TriviaRun.Sound.add (h : Layout cs bytes chars) {exact : Prop} {run : TriviaRun}
    {lo : Nat} {kind : TriviaKind} {note? : Option (String × String)}
    {stop : Nat × Nat × Nat} (hrun : run.Sound cs lo exact) (hscanning : run.scanning = true)
    (hle : run.index ≤ stop.1) (hlength : stop.1 ≤ cs.length)
    (hstop : (run.line, run.column) = lineColumn cs run.index →
      (stop.2.1, stop.2.2) = lineColumn cs stop.1) :
    (run.add bytes chars kind note? stop).Sound cs lo exact where
  le := hrun.le.trans hle
  le_length := hlength
  position := fun hexact => hstop (hrun.position hexact)
  tiles := by
    intro hexact
    have hposition := hrun.position hexact
    unfold TriviaRun.add
    rw [List.map_append, List.map_singleton, triviaTile_triviaItem h hposition (hstop hposition)]
    exact (hrun.tiles hexact).append (Tiles.singleton hle hlength)
  errors := hrun.errors
  stopped := fun hstopped => Bool.noConfusion (hscanning.symm.trans hstopped)

theorem lineColumn_of_oneLine (h : OneLine cs i j) {line column : Nat}
    (hposition : (line, column) = lineColumn cs i) :
    (line, column + (j - i)) = lineColumn cs j := by
  rw [h.lineColumn, ← hposition]

/-! A block comment. -/

structure BlockScan.Sound (cs : List Char) (lo : Nat) (exact : Prop) (scan : BlockScan) : Prop where
  le : lo ≤ scan.index
  le_length : scan.index ≤ cs.length
  position : exact → (scan.line, scan.column) = lineColumn cs scan.index
  errors : OnlyErrors scan.diagnostics
  moved : scan.done = true → lo < scan.index

theorem oneLine_two {d : Char} (hfirst : cs[i]? = some c) (hsecond : cs[i + 1]? = some d)
    (hc : c ≠ '\n') (hd : d ≠ '\n') : OneLine cs i (i + 2) :=
  (OneLine.step hfirst hc).trans (OneLine.step hsecond hd)

theorem onlyErrors_blockStep (bytes : ByteArray) (chars : List SourceChar) (source : SourceUnit)
    (limits : LexerLimits) {scan : BlockScan} (hscan : OnlyErrors scan.diagnostics) :
    OnlyErrors (blockStep source limits bytes chars scan).diagnostics := by
  unfold blockStep
  dsimp only
  split_ifs
  · exact hscan.append (onlyErrors_singleton rfl)
  all_goals exact hscan

theorem sound_blockStep (h : Layout cs bytes chars) (source : SourceUnit) (limits : LexerLimits)
    {lo : Nat} {exact : Prop} {scan : BlockScan} (hscan : scan.Sound cs lo exact)
    (hlt : scan.index < cs.length) :
    (blockStep source limits bytes chars scan).Sound cs lo exact ∧
      scan.index < (blockStep source limits bytes chars scan).index := by
  have herrors := onlyErrors_blockStep bytes chars source limits hscan.errors
  have hone : lo < scan.index + 1 := Nat.lt_succ_of_le hscan.le
  have htwo : lo < scan.index + 2 := hone.trans (Nat.lt_succ_self _)
  -- Both brackets take two scalars of one line.
  have hcolumn : OneLine cs scan.index (scan.index + 2) → exact →
      (scan.line, scan.column + 2) = lineColumn cs (scan.index + 2) := by
    intro hline hexact
    have hmove := lineColumn_of_oneLine hline (hscan.position hexact)
    rwa [Nat.add_sub_cancel_left] at hmove
  unfold blockStep at herrors ⊢
  dsimp only at herrors ⊢
  rw [h.charAt?_eq, h.charAt?_eq] at herrors ⊢
  by_cases hopen : (cs[scan.index]? == some '(' && cs[scan.index + 1]? == some '*') = true
  · rw [if_pos hopen] at herrors ⊢
    obtain ⟨hfirst, hsecond⟩ := Bool.and_eq_true_iff.1 hopen
    have hline : OneLine cs scan.index (scan.index + 2) :=
      oneLine_two (beq_iff_eq.1 hfirst) (beq_iff_eq.1 hsecond) (by decide) (by decide)
    exact ⟨⟨htwo.le, hline.le_length, hcolumn hline, herrors, fun _ => htwo⟩,
      Nat.lt_add_of_pos_right Nat.two_pos⟩
  rw [if_neg hopen] at herrors ⊢
  by_cases hclose : (cs[scan.index]? == some '*' && cs[scan.index + 1]? == some ')') = true
  · rw [if_pos hclose] at herrors ⊢
    obtain ⟨hfirst, hsecond⟩ := Bool.and_eq_true_iff.1 hclose
    have hline : OneLine cs scan.index (scan.index + 2) :=
      oneLine_two (beq_iff_eq.1 hfirst) (beq_iff_eq.1 hsecond) (by decide) (by decide)
    exact ⟨⟨htwo.le, hline.le_length, hcolumn hline, herrors, fun _ => htwo⟩,
      Nat.lt_add_of_pos_right Nat.two_pos⟩
  · rw [if_neg hclose] at herrors ⊢
    refine ⟨⟨hone.le, hlt, fun hexact => ?_, herrors, fun _ => hone⟩, Nat.lt_succ_self _⟩
    have hget : cs[scan.index]? = some cs[scan.index] := List.getElem?_eq_getElem hlt
    dsimp only
    rw [lineColumn_succ hget, ← hscan.position hexact, hget]
    unfold nextPlace
    by_cases hbreak : cs[scan.index] = '\n'
    · rw [if_pos hbreak, hbreak]
      rfl
    · have hne : (some cs[scan.index] == some '\n') = false :=
        beq_eq_false_iff_ne.2 fun heq => hbreak (Option.some.inj heq)
      rw [if_neg hbreak, hne]
      rfl

theorem sound_scanBlock (h : Layout cs bytes chars) (source : SourceUnit) (limits : LexerLimits)
    {run : TriviaRun} (herrors : OnlyErrors run.diagnostics) (hlt : run.index < cs.length) :
    (scanBlock source limits bytes chars run).Sound cs run.index
        ((run.line, run.column) = lineColumn cs run.index) ∧
      run.index < (scanBlock source limits bytes chars run).index := by
  have hloop : (scanBlock source limits bytes chars run).Sound cs run.index
        ((run.line, run.column) = lineColumn cs run.index) ∧
      (!(scanBlock source limits bytes chars run).done &&
        (scanBlock source limits bytes chars run).index < chars.length) = false := by
    refine whileLoop_spec _ _ _ _ _ ?_ ⟨le_rfl, hlt.le, id, herrors, nofun⟩
    intro scan hscan htest
    rw [Bool.and_eq_true, decide_eq_true_eq] at htest
    obtain ⟨hstep, hmoved⟩ := sound_blockStep h source limits hscan (h.length ▸ htest.2)
    exact ⟨hstep, Nat.sub_lt_sub_left htest.2 hmoved⟩
  generalize scanBlock source limits bytes chars run = scan at hloop ⊢
  obtain ⟨hsound, hdone⟩ := hloop
  refine ⟨hsound, ?_⟩
  rw [Bool.and_eq_false_iff, Bool.not_eq_false', decide_eq_false_iff_not, h.length] at hdone
  rcases hdone with hdone | hdone
  · exact hsound.moved hdone
  · exact hlt.trans_le (Nat.le_of_not_lt hdone)

/-! ### Texts of trivia

A block comment ends where the opener that began it is closed, so the scan counts
the openers and closers of what it has read. -/

theorem toList_spelling (h : Layout cs bytes chars) (kind : TriviaKind)
    (note? : Option (String × String)) (start stop : Nat × Nat × Nat) :
    (triviaItem bytes chars kind note? start stop).spelling.toList =
      between cs start.1 stop.1 := by
  unfold triviaItem
  dsimp only
  rw [h.slice_eq, String.toList_ofList]

theorem spells_comment (h : Layout cs bytes chars) {block : Bool} {payload : List Char}
    {start stop : Nat × Nat × Nat}
    (htext : CommentText block (between cs start.1 stop.1) payload) :
    (triviaItem bytes chars (if block then .blockComment else .lineComment)
      (annotationOfPayload? block payload) start stop).Spells := by
  rw [← toList_spelling h (if block then .blockComment else .lineComment)
    (annotationOfPayload? block payload) start stop] at htext
  cases hnote : annotationOfPayload? block payload with
  | none =>
    rw [hnote] at htext
    cases block with
    | false => exact ⟨payload, htext, hnote⟩
    | true => exact ⟨payload, htext, hnote⟩
  | some note =>
    rw [hnote] at htext
    exact ⟨block, payload, note, htext, hnote, rfl, rfl⟩

/-- The openers and closers of a block comment from `lo` up to `i`, of which `depth` openers are
still open, or all closed by the last two scalars. -/
structure Nested (cs : List Char) (lo i depth : Nat) (done : Bool) : Prop where
  inside : done = false → i = lo ∧ depth = 0 ∨ lo + 2 ≤ i ∧ 0 < depth
  rest : done = false → ∀ j, i ≤ j →
    closes depth (between cs i j) = true → closes 0 (between cs lo j) = true
  closed : done = true → depth = 0 ∧ ∃ k, lo + 2 ≤ k ∧ i = k + 2 ∧
    cs[k]? = some '*' ∧ cs[k + 1]? = some ')' ∧ closes 0 (between cs lo i) = true

theorem head?_between {d : Char} (h : (between cs i j).head? = some d) : cs[i]? = some d := by
  rw [List.head?_eq_getElem?] at h
  have hinside : i + 0 < j := by
    by_contra hbehind
    rw [between_of_le cs (by omega)] at h
    cases h
  rwa [getElem?_between hinside] at h

namespace Nested
variable {lo depth : Nat}

theorem opener (h : Nested cs lo i depth false) (hle : lo ≤ i) (hbracket : cs[i]? = some '(')
    (hstar : cs[i + 1]? = some '*') : Nested cs lo (i + 2) (depth + 1) false where
  inside := fun _ => Or.inr ⟨Nat.add_le_add_right hle 2, Nat.succ_pos _⟩
  rest := by
    intro _ j hj hcloses
    apply h.rest rfl j (by omega)
    rw [between_cons hbracket (by omega), between_cons hstar hj]
    exact hcloses
  closed := nofun

theorem closer (h : Nested cs lo i depth false) (hle : lo + 2 ≤ i) (hstar : cs[i]? = some '*')
    (hbracket : cs[i + 1]? = some ')') : Nested cs lo (i + 2) (depth - 1) (depth - 1 == 0) := by
  have htext : ∀ j, i + 2 ≤ j → between cs i j = '*' :: ')' :: between cs (i + 2) j := by
    intro j hj
    rw [between_cons hstar (by omega), between_cons hbracket hj]
  constructor
  · intro hopened
    exact Or.inr ⟨hle.trans (Nat.le_add_right _ _),
      Nat.pos_of_ne_zero (beq_eq_false_iff_ne.1 hopened)⟩
  · intro hopened j hj hcloses
    apply h.rest rfl j (by omega)
    rw [htext j hj, closes, hopened]
    exact hcloses
  · intro hclosed
    refine ⟨beq_iff_eq.1 hclosed, i, hle, rfl, hstar, hbracket, ?_⟩
    apply h.rest rfl _ (Nat.le_add_right _ _)
    rw [htext _ le_rfl, closes, hclosed, between_self]
    rfl

/-- A scalar that starts neither an opener nor a closer. -/
theorem plain (h : Nested cs lo i depth false) (hle : lo + 2 ≤ i) (hdepth : 0 < depth)
    (hget : cs[i]? = some c) (hopen : ¬ (c = '(' ∧ cs[i + 1]? = some '*'))
    (hclose : ¬ (c = '*' ∧ cs[i + 1]? = some ')')) : Nested cs lo (i + 1) depth false where
  inside := fun _ => Or.inr ⟨hle.trans (Nat.le_succ _), hdepth⟩
  rest := by
    intro _ j hj hcloses
    apply h.rest rfl j (by omega)
    rw [between_cons hget hj, closes_cons]
    · exact hcloses
    · rintro ⟨hbracket, hstar⟩
      exact hopen ⟨hbracket, head?_between hstar⟩
    · rintro ⟨hstar, hbracket⟩
      exact hclose ⟨hstar, head?_between hbracket⟩
  closed := nofun

end Nested

def BlockScan.Nested (cs : List Char) (lo : Nat) (scan : BlockScan) : Prop :=
  Tla.Nested cs lo scan.index scan.depth scan.done

theorem nested_blockStep (h : Layout cs bytes chars) (source : SourceUnit) (limits : LexerLimits)
    {lo : Nat} {scan : BlockScan} (hscan : scan.Nested cs lo) (hdone : scan.done = false)
    (hle : lo ≤ scan.index) (hlt : scan.index < cs.length) (hfirst : cs[lo]? = some '(')
    (hsecond : cs[lo + 1]? = some '*') :
    (blockStep source limits bytes chars scan).Nested cs lo := by
  unfold BlockScan.Nested at hscan ⊢
  rw [hdone] at hscan
  unfold blockStep
  dsimp only
  rw [h.charAt?_eq, h.charAt?_eq]
  by_cases hopen : (cs[scan.index]? == some '(' && cs[scan.index + 1]? == some '*') = true
  · rw [if_pos hopen]
    obtain ⟨hbracket, hstar⟩ := Bool.and_eq_true_iff.1 hopen
    rw [hdone]
    exact hscan.opener hle (beq_iff_eq.1 hbracket) (beq_iff_eq.1 hstar)
  -- The scan has left its own opener behind.
  have hpast : lo + 2 ≤ scan.index ∧ 0 < scan.depth := by
    rcases hscan.inside rfl with ⟨hindex, -⟩ | hpast
    · rw [hindex, hfirst, hsecond] at hopen
      exact absurd rfl hopen
    · exact hpast
  rw [if_neg hopen]
  by_cases hclose : (cs[scan.index]? == some '*' && cs[scan.index + 1]? == some ')') = true
  · rw [if_pos hclose]
    obtain ⟨hstar, hbracket⟩ := Bool.and_eq_true_iff.1 hclose
    exact hscan.closer hpast.1 (beq_iff_eq.1 hstar) (beq_iff_eq.1 hbracket)
  · rw [if_neg hclose]
    have hget : cs[scan.index]? = some cs[scan.index] := List.getElem?_eq_getElem hlt
    rw [hdone]
    apply hscan.plain hpast.1 hpast.2 hget
    · rintro ⟨hbracket, hstar⟩
      rw [hget, hbracket, hstar] at hopen
      exact hopen rfl
    · rintro ⟨hstar, hbracket⟩
      rw [hget, hstar, hbracket] at hclose
      exact hclose rfl

theorem lt_index_blockStep (source : SourceUnit) (limits : LexerLimits) (bytes : ByteArray)
    (chars : List SourceChar) (scan : BlockScan) :
    scan.index < (blockStep source limits bytes chars scan).index := by
  unfold blockStep
  dsimp only
  split_ifs
  all_goals exact Nat.lt_add_of_pos_right (by decide)

theorem silent_blockStep (source : SourceUnit) (limits : LexerLimits) (bytes : ByteArray)
    (chars : List SourceChar) {scan : BlockScan}
    (h : (blockStep source limits bytes chars scan).diagnostics = []) : scan.diagnostics = [] := by
  unfold blockStep at h
  dsimp only at h
  split_ifs at h
  · exact (List.append_eq_nil_iff.1 h).1
  all_goals exact h

theorem nested_scanBlock (h : Layout cs bytes chars) (source : SourceUnit) (limits : LexerLimits)
    {run : TriviaRun} (hfirst : cs[run.index]? = some '(')
    (hsecond : cs[run.index + 1]? = some '*') :
    (scanBlock source limits bytes chars run).Nested cs run.index ∧
      ((scanBlock source limits bytes chars run).diagnostics = [] → run.diagnostics = []) ∧
      ((scanBlock source limits bytes chars run).depth = 0 →
        (scanBlock source limits bytes chars run).done = true) := by
  have hlt := (List.getElem?_eq_some_iff.1 hfirst).1
  have hloop : ((scanBlock source limits bytes chars run).Nested cs run.index ∧
        ((scanBlock source limits bytes chars run).diagnostics = [] → run.diagnostics = []) ∧
        run.index ≤ (scanBlock source limits bytes chars run).index) ∧
      (!(scanBlock source limits bytes chars run).done &&
        (scanBlock source limits bytes chars run).index < chars.length) = false := by
    refine whileLoop_spec (fun scan : BlockScan => scan.Nested cs run.index ∧
      (scan.diagnostics = [] → run.diagnostics = []) ∧ run.index ≤ scan.index) _ _ _ _ ?_
      ⟨⟨fun _ => Or.inl ⟨rfl, rfl⟩, fun _ _ _ => id, nofun⟩, id, le_rfl⟩
    rintro scan ⟨hnested, hsilent, hle⟩ htest
    rw [Bool.and_eq_true, Bool.not_eq_true', decide_eq_true_eq] at htest
    have hinside : scan.index < cs.length := h.length ▸ htest.2
    have hmoved : scan.index < (blockStep source limits bytes chars scan).index :=
      lt_index_blockStep source limits bytes chars scan
    refine ⟨⟨nested_blockStep h source limits hnested htest.1 hle hinside hfirst hsecond,
      fun hnil => hsilent (silent_blockStep source limits bytes chars hnil),
      hle.trans hmoved.le⟩, ?_⟩
    exact Nat.sub_lt_sub_left htest.2 hmoved
  generalize scanBlock source limits bytes chars run = scan at hloop ⊢
  obtain ⟨⟨hnested, hsilent, hle⟩, hdone⟩ := hloop
  refine ⟨hnested, hsilent, fun hdepth => ?_⟩
  -- The scan stopped at the end of the text, with an opener left.
  by_contra hopen
  have hopened := Bool.eq_false_of_not_eq_true hopen
  rcases hnested.inside hopened with ⟨hindex, -⟩ | ⟨-, hpos⟩
  · rw [hopened, hindex, h.length] at hdone
    simp [hlt] at hdone
  · exact hpos.ne' hdepth

/-! One item, and the loop over items. -/

section Items
variable {lo : Nat} {exact : Prop} {run : TriviaRun}

/-- What one item does to a run: it moves on, and the loop goes on scanning. -/
def Advances (cs : List Char) (lo : Nat) (exact : Prop) (run run' : TriviaRun) : Prop :=
  run'.Sound cs lo exact ∧ run.index < run'.index

theorem lt_runStop (h : Layout cs bytes chars) {accept : Char → Bool} (hget : cs[i]? = some c)
    (hc : accept c = true) : i < runStop accept chars i := by
  have hlt := (List.getElem?_eq_some_iff.1 hget).1
  obtain ⟨hle, -, -, hstop⟩ := runStop_spec h accept hlt.le
  refine hle.lt_of_ne fun heq => ?_
  rw [← heq, hget] at hstop
  exact Bool.noConfusion (hc.symm.trans hstop)

theorem advances_spaceItem (h : Layout cs bytes chars) (hrun : run.Sound cs lo exact)
    (hscanning : run.scanning = true) (hget : cs[run.index]? = some c)
    (hc : isHorizontalSpace c = true) : Advances cs lo exact run (spaceItem bytes chars run) := by
  have hline : OneLine cs run.index (skipHorizontalSpaces chars run.index) :=
    runStop_oneLine h (by decide) hrun.le_length
  exact ⟨hrun.add h hscanning hline.le hline.le_length (lineColumn_of_oneLine hline),
    lt_runStop h hget hc⟩

theorem advances_newlineItem (h : Layout cs bytes chars) (hrun : run.Sound cs lo exact)
    (hscanning : run.scanning = true) (hget : cs[run.index]? = some '\n') :
    Advances cs lo exact run (newlineItem bytes chars run) := by
  refine ⟨hrun.add h hscanning (Nat.le_succ _) (List.getElem?_eq_some_iff.1 hget).1 ?_,
    Nat.lt_succ_self _⟩
  intro hposition
  rw [lineColumn_succ hget, ← hposition]
  rfl

theorem advances_lineCommentItem (h : Layout cs bytes chars) (hrun : run.Sound cs lo exact)
    (hscanning : run.scanning = true) (hfirst : cs[run.index]? = some '\\')
    (hsecond : cs[run.index + 1]? = some '*') :
    Advances cs lo exact run (lineCommentItem bytes chars run) := by
  have hopen : OneLine cs run.index (run.index + 2) :=
    oneLine_two hfirst hsecond (by decide) (by decide)
  have hbody : OneLine cs (run.index + 2) (runStop (· != '\n') chars (run.index + 2)) :=
    runStop_oneLine h (by decide) hopen.le_length
  have hline := hopen.trans hbody
  refine ⟨hrun.add h hscanning hline.le hline.le_length (lineColumn_of_oneLine hline), ?_⟩
  exact Nat.lt_of_lt_of_le (by omega) hbody.le

theorem advances_blockCommentItem (h : Layout cs bytes chars) (source : SourceUnit)
    (limits : LexerLimits) (hrun : run.Sound cs lo exact) (hscanning : run.scanning = true)
    (hlt : run.index < cs.length) :
    Advances cs lo exact run (blockCommentItem source limits bytes chars run) := by
  obtain ⟨hscan, hmoved⟩ := sound_scanBlock h source limits hrun.errors hlt
  unfold blockCommentItem
  dsimp only
  generalize scanBlock source limits bytes chars run = scan at hscan hmoved ⊢
  have hadd : (run.add bytes chars .blockComment (annotationOfPayload? true
      (commentPayload bytes chars (run.index + 2) scan.index true scan.done))
      (scan.index, scan.line, scan.column)).Sound cs lo exact :=
    hrun.add h hscanning hscan.le hscan.le_length hscan.position
  refine ⟨⟨hadd.le, hadd.le_length, hadd.position, hadd.tiles, ?_, hadd.stopped⟩, hmoved⟩
  dsimp only
  split_ifs
  · exact hscan.errors.append (onlyErrors_singleton rfl)
  · exact hscan.errors

/-- Where nothing was reported, every item has the text of its kind. -/
def TriviaRun.Spelled (run : TriviaRun) : Prop :=
  run.diagnostics = [] → ∀ item ∈ run.items, item.Spells

theorem spelled_add {kind : TriviaKind} {note? : Option (String × String)}
    {stop : Nat × Nat × Nat} (hspelled : run.Spelled)
    (hitem : (triviaItem bytes chars kind note? (run.index, run.line, run.column) stop).Spells) :
    (run.add bytes chars kind note? stop).Spelled := by
  intro hnil item hmem
  unfold TriviaRun.add at hmem
  rcases List.mem_append.1 hmem with hmem | hmem
  · exact hspelled hnil item hmem
  · rw [List.mem_singleton.1 hmem]
    exact hitem

theorem spelled_spaceItem (h : Layout cs bytes chars) (hspelled : run.Spelled)
    (hget : cs[run.index]? = some c) (hc : isHorizontalSpace c = true) :
    (spaceItem bytes chars run).Spelled := by
  have hlt := (List.getElem?_eq_some_iff.1 hget).1
  obtain ⟨-, -, hall, -⟩ := runStop_spec h isHorizontalSpace hlt.le
  apply spelled_add hspelled
  unfold Trivia.Spells
  rw [toList_spelling h]
  refine ⟨?_, hall⟩
  show between cs run.index (runStop isHorizontalSpace chars run.index) ≠ []
  rw [between_cons hget (lt_runStop h hget hc)]
  exact List.cons_ne_nil _ _

theorem spelled_newlineItem (h : Layout cs bytes chars) (hspelled : run.Spelled)
    (hget : cs[run.index]? = some '\n') : (newlineItem bytes chars run).Spelled := by
  apply spelled_add hspelled
  show _ = ['\n']
  rw [toList_spelling h]
  exact between_succ hget

theorem commentPayload_eq (h : Layout cs bytes chars) (i j : Nat) (block closed : Bool) :
    commentPayload bytes chars i j block closed =
      between cs i (if block && closed then j - 2 else j) := by
  unfold commentPayload
  dsimp only
  rw [h.slice_eq, String.toList_ofList]

theorem spelled_lineCommentItem (h : Layout cs bytes chars) (hspelled : run.Spelled)
    (hfirst : cs[run.index]? = some '\\') (hsecond : cs[run.index + 1]? = some '*') :
    (lineCommentItem bytes chars run).Spelled := by
  have hopen := (List.getElem?_eq_some_iff.1 hsecond).1
  have hbody : OneLine cs (run.index + 2) (runStop (· != '\n') chars (run.index + 2)) :=
    runStop_oneLine h (by decide) hopen
  unfold lineCommentItem
  dsimp only
  rw [commentPayload_eq h]
  apply spelled_add hspelled
  have htext : CommentText false
      (between cs run.index (runStop (· != '\n') chars (run.index + 2)))
      (between cs (run.index + 2) (runStop (· != '\n') chars (run.index + 2))) := by
    have hle := hbody.le
    refine ⟨?_, hbody.noBreak⟩
    rw [between_cons hfirst (by omega), between_cons hsecond (by omega)]
  exact spells_comment h htext

theorem spelled_blockCommentItem (h : Layout cs bytes chars) (source : SourceUnit)
    (limits : LexerLimits) (hspelled : run.Spelled) (hfirst : cs[run.index]? = some '(')
    (hsecond : cs[run.index + 1]? = some '*') :
    (blockCommentItem source limits bytes chars run).Spelled := by
  obtain ⟨hnested, hsilent, hclosed⟩ := nested_scanBlock h source limits hfirst hsecond
  unfold blockCommentItem
  dsimp only
  generalize scanBlock source limits bytes chars run = scan at hnested hsilent hclosed ⊢
  intro hnil
  dsimp only at hnil
  split_ifs at hnil with hdepth
  · simp at hnil
  -- The comment is closed: its payload ends in front of the last closer.
  have hdone := hclosed (Nat.eq_zero_of_not_pos hdepth)
  obtain ⟨-, stop, hle, hindex, hstar, hbracket, hcloses⟩ := hnested.closed hdone
  have htext : CommentText true (between cs run.index scan.index)
      (between cs (run.index + 2) stop) := by
    refine ⟨?_, hcloses⟩
    rw [hindex, between_cons hfirst (by omega), between_cons hsecond (by omega),
      ← between_append cs hle (Nat.le_add_right stop 2), between_cons hstar (by omega),
      between_succ hbracket]
  have hpayload : commentPayload bytes chars (run.index + 2) scan.index true scan.done =
      between cs (run.index + 2) stop := by
    rw [commentPayload_eq h, hdone, hindex]
    rfl
  have hitem : (triviaItem bytes chars .blockComment
      (annotationOfPayload? true (between cs (run.index + 2) stop))
      (run.index, run.line, run.column) (scan.index, scan.line, scan.column)).Spells :=
    spells_comment h htext
  rw [hpayload]
  exact spelled_add hspelled hitem (hsilent hnil)

theorem spelled_triviaStep (h : Layout cs bytes chars) (source : SourceUnit)
    (limits : LexerLimits) (hspelled : run.Spelled) :
    (triviaStep source limits bytes chars run).Spelled := by
  unfold triviaStep
  dsimp only
  rw [h.charAt?_eq, h.charAt?_eq]
  split_ifs with hspace hnewline hline hblock
  · obtain ⟨c, hget, hc⟩ := any_eq_true_iff.1 hspace
    exact spelled_spaceItem h hspelled hget hc
  · exact spelled_newlineItem h hspelled (beq_iff_eq.1 hnewline)
  · obtain ⟨hfirst, hsecond⟩ := Bool.and_eq_true_iff.1 hline
    exact spelled_lineCommentItem h hspelled (beq_iff_eq.1 hfirst) (beq_iff_eq.1 hsecond)
  · obtain ⟨hfirst, hsecond⟩ := Bool.and_eq_true_iff.1 hblock
    exact spelled_blockCommentItem h source limits hspelled (beq_iff_eq.1 hfirst)
      (beq_iff_eq.1 hsecond)
  · exact hspelled

theorem sound_triviaStep (h : Layout cs bytes chars) (source : SourceUnit) (limits : LexerLimits)
    (hrun : run.Sound cs lo exact) (hscanning : run.scanning = true)
    (hlt : run.index < cs.length) :
    (triviaStep source limits bytes chars run).Sound cs lo exact ∧
      ((triviaStep source limits bytes chars run).scanning = false ∨
        run.index < (triviaStep source limits bytes chars run).index) ∧
      run.index ≤ (triviaStep source limits bytes chars run).index := by
  unfold triviaStep
  dsimp only
  rw [h.charAt?_eq, h.charAt?_eq]
  split_ifs with hspace hnewline hline hblock
  · obtain ⟨c, hget, hc⟩ := any_eq_true_iff.1 hspace
    obtain ⟨hsound, hmoved⟩ := advances_spaceItem h hrun hscanning hget hc
    exact ⟨hsound, Or.inr hmoved, hmoved.le⟩
  · obtain ⟨hsound, hmoved⟩ := advances_newlineItem h hrun hscanning (beq_iff_eq.1 hnewline)
    exact ⟨hsound, Or.inr hmoved, hmoved.le⟩
  · obtain ⟨hfirst, hsecond⟩ := Bool.and_eq_true_iff.1 hline
    obtain ⟨hsound, hmoved⟩ := advances_lineCommentItem h hrun hscanning (beq_iff_eq.1 hfirst)
      (beq_iff_eq.1 hsecond)
    exact ⟨hsound, Or.inr hmoved, hmoved.le⟩
  · obtain ⟨hsound, hmoved⟩ := advances_blockCommentItem h source limits hrun hscanning hlt
    exact ⟨hsound, Or.inr hmoved, hmoved.le⟩
  · refine ⟨⟨hrun.le, hrun.le_length, hrun.position, hrun.tiles, hrun.errors, fun _ hget => ?_⟩,
      Or.inl rfl, le_rfl⟩
    exact hnewline (beq_iff_eq.2 hget)

end Items

theorem sound_scanTrivia (h : Layout cs bytes chars) (source : SourceUnit) (limits : LexerLimits)
    (hi : i ≤ cs.length) (line column : Nat) :
    (scanTrivia source limits bytes chars i line column).Sound cs i
        ((line, column) = lineColumn cs i) ∧
      (scanTrivia source limits bytes chars i line column).Spelled ∧
      cs[(scanTrivia source limits bytes chars i line column).index]? ≠ some '\n' := by
  have hloop : ((scanTrivia source limits bytes chars i line column).Sound cs i
          ((line, column) = lineColumn cs i) ∧
        (scanTrivia source limits bytes chars i line column).Spelled) ∧
      ((scanTrivia source limits bytes chars i line column).scanning &&
        (scanTrivia source limits bytes chars i line column).index < chars.length) = false := by
    refine whileLoop_spec (fun run : TriviaRun =>
      run.Sound cs i ((line, column) = lineColumn cs i) ∧ run.Spelled) _ _ _ _ ?_
      ⟨⟨le_rfl, hi, id, fun _ => rfl, onlyErrors_nil, nofun⟩, fun _ => nofun⟩
    rintro run ⟨hrun, hspelled⟩ htest
    rw [Bool.and_eq_true, decide_eq_true_eq, h.length] at htest
    obtain ⟨hsound, hmoved, hle⟩ := sound_triviaStep h source limits hrun htest.1 htest.2
    refine ⟨⟨hsound, spelled_triviaStep h source limits hspelled⟩, ?_⟩
    rw [h.length, if_pos htest.1]
    rcases hmoved with hstopped | hmoved
    · rw [hstopped]
      exact Nat.lt_succ_of_le (Nat.sub_le_sub_left hle _)
    · have hless := Nat.sub_lt_sub_left htest.2 hmoved
      split <;> omega
  generalize scanTrivia source limits bytes chars i line column = run at hloop ⊢
  obtain ⟨⟨hsound, hspelled⟩, hdone⟩ := hloop
  refine ⟨hsound, hspelled, ?_⟩
  rw [Bool.and_eq_false_iff, decide_eq_false_iff_not, h.length] at hdone
  rcases hdone with hdone | hdone
  · exact hsound.stopped hdone
  · intro hget
    exact hdone (List.getElem?_eq_some_iff.1 hget).1

end MirrorsCore.Tla
