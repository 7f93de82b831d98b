import Mathlib
import MirrorsCore.Tla.Lexer

/-! What the kinds of tokens and trivia say about their text. -/

namespace MirrorsCore.Tla

/-- The body of a string: supported escapes, no quote and no line break. -/
inductive StringBody : List Char → Prop where
  | nil : StringBody []
  | plain {body : List Char} {c : Char} : StringBody body → c ≠ '\\' → c ≠ '"' → c ≠ '\n' →
      StringBody (body ++ [c])
  | escape {body : List Char} {c : Char} : StringBody body → isEscape c = true →
      StringBody (body ++ ['\\', c])

inductive Words : Nat → List Char → Prop where
  | word {text : List Char} : ModuleName.valid (String.ofList text) = true → Words 1 text
  | join {n : Nat} {front text : List Char} : Words n front →
      ModuleName.valid (String.ofList text) = true → Words (n + 1) (front ++ '!' :: text)

def radixMark : Nat → List Char
  | 2 => ['\\', 'b']
  | 8 => ['\\', 'o']
  | 16 => ['\\', 'h']
  | _ => []

/-- Digits of one radix and the number they stand for, most significant first. -/
def IntegerText (text : List Char) (value : Int) : Prop :=
  ∃ radix ∈ [2, 8, 10, 16], ∃ (digits : List Char) (values : List Nat), values ≠ [] ∧
    digits.map (radixDigitValue? radix) = values.map some ∧
    text = radixMark radix ++ digits ∧ value = (Nat.ofDigits radix values.reverse : Nat)

def HeaderLine (text : List Char) (name : String) : Prop :=
  ∃ dashes gap gap' gap'' dashes' : List Char,
    4 ≤ dashes.length ∧ (∀ c ∈ dashes, c = '-') ∧ (∀ c ∈ gap, isHorizontalSpace c = true) ∧
    gap' ≠ [] ∧ (∀ c ∈ gap', isHorizontalSpace c = true) ∧ ModuleName.valid name = true ∧
    (∀ c ∈ gap'', isHorizontalSpace c = true) ∧
    4 ≤ dashes'.length ∧ (∀ c ∈ dashes', c = '-') ∧
    text = dashes ++ (gap ++ ("MODULE".toList ++ (gap' ++ (name.toList ++ (gap'' ++ dashes')))))

def Spells (profile : LexicalProfile) : TokenKind → String → Prop
  | .identifier, text =>
      ModuleName.valid text = true ∧ profile.keyword? text = none ∧
        profile.prefixKeywordAt? text = none
  | .qualifiedName, text => ∃ n, 2 ≤ n ∧ Words n text.toList
  | .keyword canonical, text =>
      text = canonical ∧ (canonical ∈ profile.keywords ∨ canonical ∈ profile.prefixKeywords)
  | .integer value, text => IntegerText text.toList value
  | .string, text => ∃ body, StringBody body ∧ text.toList = '"' :: (body ++ ['"'])
  | .symbol symbol, text => symbol.canonical = (profile.canonicalFor? text).getD text
  | .moduleHeader, text => ∃ name, HeaderLine text.toList name
  | .moduleEnd, text => 4 ≤ text.toList.length ∧ ∀ c ∈ text.toList, c = '='
  | .eof, _ => False

/-- A scalar that the lexer takes as it stands: an ASCII one, or the first of a longer spelling
that an operator run cuts off. -/
def RawScalar (profile : LanguageProfile) (kind : TokenKind) (text : String) : Prop :=
  kind = .symbol ⟨text⟩ ∧ ∃ c, text = String.ofList [c] ∧
    (c.toNat ≤ 0x7F ∨ ∃ group ∈ profile.symbols, ∃ spelling ∈ group.spellings,
      2 ≤ spelling.toList.length ∧ spelling.toList.head? = some c)

/-- A spelling of one scalar is canonical, unless it is neither ASCII nor the first of a longer
spelling. -/
def LanguageProfile.PlainScalars (profile : LanguageProfile) : Prop :=
  ∀ group ∈ profile.symbols, ∀ spelling ∈ group.spellings, ∀ c ∈ spelling.toList,
    spelling.toList = [c] → group.canonical = spelling ∨
      0x7F < c.toNat ∧ ∀ other ∈ profile.symbols, ∀ longer ∈ other.spellings,
        2 ≤ longer.toList.length → longer.toList.head? ≠ some c

theorem exists_spelling {profile : LanguageProfile} {text canonical : String}
    (h : profile.canonicalFor? text = some canonical) :
    ∃ group ∈ profile.symbols, text ∈ group.spellings ∧ group.canonical = canonical := by
  unfold LanguageProfile.canonicalFor? at h
  obtain ⟨group, hgroup, hsome⟩ := List.exists_of_findSome?_eq_some h
  split_ifs at hsome with hmem
  exact ⟨group, hgroup, List.contains_iff_mem.1 hmem, Option.some.inj hsome⟩

theorem spells_of_rawScalar {profile : LexicalProfile} (plain : profile.PlainScalars)
    {kind : TokenKind} {text : String} (h : RawScalar profile.toLanguageProfile kind text) :
    Spells profile kind text := by
  obtain ⟨rfl, c, rfl, hc⟩ := h
  show String.ofList [c] = (profile.canonicalFor? (String.ofList [c])).getD (String.ofList [c])
  cases hcanonical : profile.canonicalFor? (String.ofList [c]) with
  | none => rfl
  | some canonical =>
    obtain ⟨group, hgroup, hspelling, rfl⟩ := exists_spelling hcanonical
    have hsingle : (String.ofList [c]).toList = [c] := String.toList_ofList
    have hmem : c ∈ (String.ofList [c]).toList := by
      rw [hsingle]
      exact List.mem_singleton_self c
    -- The scalar is an alias of one scalar: it is canonical, or could not have been cut off.
    rcases plain group hgroup _ hspelling c hmem hsingle with heq | ⟨hunicode, hfirst⟩
    · exact heq.symm
    · rcases hc with hascii | ⟨other, hother, longer, hlonger, hlong, hhead⟩
      · exact absurd hascii (Nat.not_le_of_lt hunicode)
      · exact absurd hhead (hfirst other hother longer hlonger hlong)

/-! ### Trivia -/

/-- Whether a text closes all comments that are open in front of it, `depth` in number, at its
end and not before. -/
def closes : Nat → List Char → Bool
  | depth, '(' :: '*' :: rest => closes (depth + 1) rest
  | depth, '*' :: ')' :: rest => if depth - 1 == 0 then rest.isEmpty else closes (depth - 1) rest
  | depth, _ :: rest => closes depth rest
  | _, [] => false

/-- A comment, to the end of its line or as a block, around its payload. -/
def CommentText (block : Bool) (text payload : List Char) : Prop :=
  if block then text = '(' :: '*' :: (payload ++ ['*', ')']) ∧ closes 0 text = true
  else text = '\\' :: '*' :: payload ∧ '\n' ∉ payload

/-- The texts of a kind of trivia; a comment is an annotation when its payload says so. -/
def Trivia.Spells (item : Trivia) : Prop :=
  match item.kind with
  | .whitespace => item.spelling.toList ≠ [] ∧
      ∀ c ∈ item.spelling.toList, isHorizontalSpace c = true
  | .newline => item.spelling.toList = ['\n']
  | .lineComment => ∃ payload, CommentText false item.spelling.toList payload ∧
      annotationOfPayload? false payload = none
  | .blockComment => ∃ payload, CommentText true item.spelling.toList payload ∧
      annotationOfPayload? true payload = none
  | TriviaKind.annotation => ∃ block payload note, CommentText block item.spelling.toList payload ∧
      annotationOfPayload? block payload = some note ∧ item.annotationKind = some note.1 ∧
      item.annotationPayload = some note.2

theorem closes_cons {c : Char} {rest : List Char} (depth : Nat)
    (hopen : ¬ (c = '(' ∧ rest.head? = some '*'))
    (hclose : ¬ (c = '*' ∧ rest.head? = some ')')) :
    closes depth (c :: rest) = closes depth rest := by
  cases rest with
  | nil => simp [closes]
  | cons d rest =>
    rw [closes]
    · intro rest' hc hrest
      exact hopen ⟨hc, hrest ▸ rfl⟩
    · intro rest' hc hrest
      exact hclose ⟨hc, hrest ▸ rfl⟩

/-! ### Numbers -/

theorem foldRadixDigits_eq {radix : Nat} {digits : List Char} {values : List Nat}
    (h : digits.map (radixDigitValue? radix) = values.map some) :
    foldRadixDigits radix digits = (Nat.ofDigits radix values.reverse : Nat) := by
  induction digits using List.reverseRecOn generalizing values with
  | nil =>
    obtain rfl : values = [] := List.map_eq_nil_iff.1 h.symm
    rfl
  | append_singleton digits digit ih =>
    rcases List.eq_nil_or_concat values with rfl | ⟨front, value, rfl⟩
    · rw [List.map_append] at h
      exact absurd h (by simp)
    · rw [List.concat_eq_append, List.map_append, List.map_append] at h
      obtain ⟨hfront, hlast⟩ := List.append_inj' h rfl
      have hvalue : radixDigitValue? radix digit = some value := by
        rw [List.map_singleton, List.map_singleton] at hlast
        exact List.cons.inj hlast |>.1
      unfold foldRadixDigits at ih ⊢
      rw [List.foldl_append, ih hfront, List.foldl_cons, List.foldl_nil, hvalue,
        List.concat_eq_append, List.reverse_append, List.reverse_singleton, List.singleton_append,
        Nat.ofDigits_cons]
      push_cast
      ring

theorem exists_values {α β : Type} {f : α → Option β} {xs : List α}
    (h : ∀ x ∈ xs, (f x).isSome = true) : ∃ values : List β, xs.map f = values.map some := by
  induction xs with
  | nil => exact ⟨[], rfl⟩
  | cons x xs ih =>
    obtain ⟨values, hvalues⟩ := ih fun y hy => h y (List.mem_cons_of_mem _ hy)
    obtain ⟨value, hvalue⟩ := Option.isSome_iff_exists.1 (h x List.mem_cons_self)
    exact ⟨value :: values, by rw [List.map_cons, List.map_cons, hvalue, hvalues]⟩

theorem integerText_of_digits {radix : Nat} {digits : List Char}
    (hradix : radix ∈ [2, 8, 10, 16]) (hne : digits ≠ [])
    (hdigits : ∀ d ∈ digits, (radixDigitValue? radix d).isSome = true) :
    IntegerText (radixMark radix ++ digits) (foldRadixDigits radix digits) := by
  obtain ⟨values, hvalues⟩ := exists_values hdigits
  refine ⟨radix, hradix, digits, values, ?_, hvalues, rfl, foldRadixDigits_eq hvalues⟩
  rintro rfl
  exact hne (List.map_eq_nil_iff.1 hvalues)

theorem isSome_radixDigitValue?_of_isAsciiDigit {c : Char} (h : isAsciiDigit c = true) :
    (radixDigitValue? 10 c).isSome = true := by
  unfold isAsciiDigit at h
  dsimp only at h
  rw [Bool.and_eq_true, decide_eq_true_eq, decide_eq_true_eq] at h
  have hvalue : c.toNat - 0x30 < 10 := by omega
  unfold radixDigitValue?
  dsimp only
  rw [if_pos (by rw [Bool.and_eq_true, decide_eq_true_eq, decide_eq_true_eq]; exact h)]
  dsimp only
  rw [if_pos hvalue]
  rfl

/-! ### Header lines -/

section Header
variable {p : Char → Bool} {front back : List Char}

theorem dropWhile_append (hfront : ∀ c ∈ front, p c = true)
    (hback : (back.head?).any p = false) : Token.dropWhile p (front ++ back) = back := by
  induction front with
  | nil =>
    cases back with
    | nil => rfl
    | cons c back =>
      rw [List.nil_append, Token.dropWhile, if_neg]
      exact Bool.not_eq_true _ ▸ hback
  | cons c front ih =>
    rw [List.cons_append, Token.dropWhile, if_pos (hfront c List.mem_cons_self)]
    exact ih fun d hd => hfront d (List.mem_cons_of_mem _ hd)

theorem takeWordFrom_append (acc : List Char)
    (hfront : ∀ c ∈ front, isAsciiIdentifierChar c = true)
    (hback : (back.head?).any isAsciiIdentifierChar = false) :
    Token.takeWordFrom acc (front ++ back) = (acc.reverse ++ front, back) := by
  induction front generalizing acc with
  | nil =>
    cases back with
    | nil =>
      rw [List.append_nil, List.append_nil]
      rfl
    | cons c back =>
      rw [List.nil_append, List.append_nil, Token.takeWordFrom, if_neg]
      exact Bool.not_eq_true _ ▸ hback
  | cons c front ih =>
    rw [List.cons_append, Token.takeWordFrom, if_pos (hfront c List.mem_cons_self),
      ih _ fun d hd => hfront d (List.mem_cons_of_mem _ hd), List.reverse_cons, List.append_assoc]
    rfl

theorem head?_append_any (hfront : ∀ c ∈ front, p c = false) (hback : (back.head?).any p = false) :
    ((front ++ back).head?).any p = false := by
  cases front with
  | nil => exact hback
  | cons c front => exact hfront c List.mem_cons_self

theorem all_identifier_of_valid {name : String} (h : ModuleName.valid name = true) :
    ∀ c ∈ name.toList, isAsciiIdentifierChar c = true := by
  unfold ModuleName.valid at h
  cases hname : name.toList with
  | nil => exact nofun
  | cons first rest =>
    rw [hname] at h
    obtain ⟨hfirst, hrest⟩ := Bool.and_eq_true_iff.1 h
    intro c hc
    rcases List.mem_cons.1 hc with rfl | hc
    · unfold isAsciiIdentifierChar
      rcases Bool.or_eq_true_iff.1 hfirst with hletter | hunderscore
      · rw [hletter]
        rfl
      · rw [hunderscore, Bool.or_true]
    · exact List.all_eq_true.1 hrest c hc

theorem eq_of_isHorizontalSpace {c : Char} (h : isHorizontalSpace c = true) :
    c = ' ' ∨ c = '\t' := by
  rcases Bool.or_eq_true_iff.1 h with h | h
  · exact Or.inl (beq_iff_eq.1 h)
  · exact Or.inr (beq_iff_eq.1 h)

theorem not_word_of_isHorizontalSpace {c : Char} (h : isHorizontalSpace c = true) :
    isAsciiIdentifierChar c = false ∧ Token.isHeaderDash c = false := by
  rcases eq_of_isHorizontalSpace h with rfl | rfl <;> decide

theorem not_blank_of_word {c : Char} (h : isAsciiIdentifierChar c = true) :
    Token.isHeaderBlank c = false := by
  by_contra hblank
  have hspace := not_word_of_isHorizontalSpace (Bool.eq_true_of_not_eq_false hblank)
  exact Bool.noConfusion (h.symm.trans hspace.1)

theorem head?_any_of_ne_nil (hne : front ≠ []) (hfront : ∀ c ∈ front, p c = false)
    (back : List Char) : ((front ++ back).head?).any p = false := by
  cases front with
  | nil => exact absurd rfl hne
  | cons c front => exact hfront c List.mem_cons_self

theorem moduleHeaderName?_of_headerLine {token : Token} {name : String}
    (hkind : token.kind = .moduleHeader) (h : HeaderLine token.spelling.toList name) :
    token.moduleHeaderName? = some name := by
  obtain ⟨dashes, gap, gap', gap'', dashes', -, hdashes, hgap, hne, hgap', hvalid, hgap'', -,
    hdashes', htext⟩ := h
  have hword := all_identifier_of_valid hvalid
  have hspelled : "MODULE".toList = ['M', 'O', 'D', 'U', 'L', 'E'] := rfl
  have hmodule : "MODULE".toList ≠ [] := by
    rw [hspelled]
    exact List.cons_ne_nil _ _
  have hletters : ∀ c ∈ "MODULE".toList, isAsciiIdentifierChar c = true ∧
      Token.isHeaderDash c = false ∧ Token.isHeaderBlank c = false := by
    intro c hc
    simp only [hspelled, List.mem_cons, List.not_mem_nil, or_false] at hc
    rcases hc with rfl | rfl | rfl | rfl | rfl | rfl <;> exact ⟨rfl, rfl, rfl⟩
  have hname : name.toList ≠ [] := by
    intro hnil
    unfold ModuleName.valid at hvalid
    rw [hnil] at hvalid
    cases hvalid
  have htail : ((gap'' ++ dashes').head?).any isAsciiIdentifierChar = false := by
    refine head?_append_any (fun c hc => (not_word_of_isHorizontalSpace (hgap'' c hc)).1) ?_
    cases dashes' with
    | nil => rfl
    | cons c dashes' =>
      rw [List.head?_cons, Option.any_some, hdashes' c List.mem_cons_self]
      decide
  have hdrop : Token.dropWhile Token.isHeaderDash token.spelling.toList =
      gap ++ ("MODULE".toList ++ (gap' ++ (name.toList ++ (gap'' ++ dashes')))) := by
    rw [htext]
    refine dropWhile_append (fun c hc => beq_iff_eq.2 (hdashes c hc)) ?_
    exact head?_append_any (fun c hc => (not_word_of_isHorizontalSpace (hgap c hc)).2)
      (head?_any_of_ne_nil hmodule (fun c hc => (hletters c hc).2.1) _)
  have hblank : Token.dropWhile Token.isHeaderBlank
      (gap ++ ("MODULE".toList ++ (gap' ++ (name.toList ++ (gap'' ++ dashes'))))) =
        "MODULE".toList ++ (gap' ++ (name.toList ++ (gap'' ++ dashes'))) :=
    dropWhile_append hgap (head?_any_of_ne_nil hmodule (fun c hc => (hletters c hc).2.2) _)
  have hkeyword : Token.takeWordFrom [] ("MODULE".toList ++
      (gap' ++ (name.toList ++ (gap'' ++ dashes')))) =
        ("MODULE".toList, gap' ++ (name.toList ++ (gap'' ++ dashes'))) := takeWordFrom_append []
    (fun c hc => (hletters c hc).1)
    (head?_any_of_ne_nil hne (fun c hc => (not_word_of_isHorizontalSpace (hgap' c hc)).1) _)
  have hgapped : Token.dropWhile Token.isHeaderBlank
      (gap' ++ (name.toList ++ (gap'' ++ dashes'))) = name.toList ++ (gap'' ++ dashes') :=
    dropWhile_append hgap'
      (head?_any_of_ne_nil hname (fun c hc => not_blank_of_word (hword c hc)) _)
  have hnamed := takeWordFrom_append [] hword htail
  unfold Token.moduleHeaderName? Token.takeWord
  dsimp only
  rw [hkind, hdrop, hblank, hkeyword]
  dsimp only
  rw [hgapped, hnamed, List.reverse_nil, List.nil_append, String.ofList_toList,
    String.ofList_toList, hvalid]
  rfl

end Header
end MirrorsCore.Tla
