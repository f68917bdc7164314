import AutoSwe.Lib.Json

/-!
# Compact JSON text

`dumps` writes a document without blanks, with the keys of every object in order
and with characters outside of ASCII as they are. Such a text can be read in one
way only, whatever follows it (`document_inj`), which also decides equality, so that two
documents have one text just if they are equal up to the order of keys (`dumps_eq_iff`).
-/

namespace Json

open List Prod

/-! ## Strings -/

/-- The characters that have an escape of two characters, with its letter. -/
def shortEscapes : List (Char × Char) :=
  [('"', '"'), ('\\', '\\'), ('\x08', 'b'), ('\x0c', 'f'), ('\n', 'n'), ('\r', 'r'), ('\t', 't')]

def shortEscape (c : Char) : Option Char :=
  (shortEscapes.find? fun entry => entry.1 = c).map snd

def escape (c : Char) : List Char :=
  match shortEscape c with
  | some letter => ['\\', letter]
  | none =>
    if c.toNat < 32 then
      ['\\', 'u', '0', '0', Nat.digitChar (c.toNat / 16), Nat.digitChar (c.toNat % 16)]
    else [c]

def quoted (text : List Char) : List Char := '"' :: text.flatMap escape ++ ['"']

theorem mem_shortEscapes (h : shortEscape c = some letter) : (c, letter) ∈ shortEscapes := by
  obtain ⟨entry, hfind, rfl⟩ := Option.map_eq_some_iff.mp h
  obtain rfl : entry.1 = c := by simpa using find?_some hfind
  exact mem_of_find?_eq_some hfind

theorem shortEscape_inj (hc : shortEscape c = some letter)
    (hd : shortEscape d = some letter) : c = d := by
  have htable : ∀ entry ∈ shortEscapes, ∀ other ∈ shortEscapes,
      entry.2 = other.2 → entry.1 = other.1 := by decide
  exact htable _ (mem_shortEscapes hc) _ (mem_shortEscapes hd) rfl

theorem shortEscape_ne_u (c : Char) : shortEscape c ≠ some 'u' := by
  intro h
  have htable : ∀ entry ∈ shortEscapes, entry.2 ≠ 'u' := by decide
  exact htable _ (mem_shortEscapes h) rfl

theorem digitChar_inj : ∀ m < 16, ∀ n < 16, Nat.digitChar m = Nat.digitChar n → m = n := by
  decide

/-- How a character is written: by a letter, by its number, or as it is. -/
theorem escape_cases (c : Char) :
    (∃ letter, shortEscape c = some letter ∧ escape c = ['\\', letter]) ∨
      (c.toNat < 32 ∧ escape c = ['\\', 'u', '0', '0', Nat.digitChar (c.toNat / 16),
        Nat.digitChar (c.toNat % 16)]) ∨
      (c ≠ '\\' ∧ c ≠ '"' ∧ escape c = [c]) := by
  cases hshort : shortEscape c with
  | some letter => exact .inl ⟨letter, rfl, by simp [escape, hshort]⟩
  | none =>
    by_cases hlow : c.toNat < 32
    · exact .inr (.inl ⟨hlow, by simp [escape, hshort, hlow]⟩)
    · refine .inr (.inr ⟨?_, ?_, by simp [escape, hshort, hlow]⟩)
      · rintro rfl
        exact absurd hshort (by decide)
      · rintro rfl
        exact absurd hshort (by decide)

/-- Escapes are a prefix code. -/
theorem escape_append_inj (h : escape c ++ r = escape d ++ r') : c = d ∧ r = r' := by
  rcases escape_cases c with ⟨letter, hletter, hc⟩ | ⟨hlow, hc⟩ | ⟨hplain, -, hc⟩ <;>
    rcases escape_cases d with ⟨letter', hletter', hd⟩ | ⟨hlow', hd⟩ | ⟨hplain', -, hd⟩ <;>
    rw [hc, hd] at h <;> simp only [List.cons_append, List.nil_append, List.cons.injEq] at h
  · obtain ⟨-, rfl, rfl⟩ := h
    exact ⟨shortEscape_inj hletter hletter', rfl⟩
  · obtain ⟨-, rfl, -⟩ := h
    exact absurd hletter (shortEscape_ne_u c)
  · exact absurd h.1.symm hplain'
  · obtain ⟨-, rfl, -⟩ := h
    exact absurd hletter' (shortEscape_ne_u d)
  · obtain ⟨-, -, -, -, hhigh, hlast, rfl⟩ := h
    have hdiv := digitChar_inj _ (by omega) _ (by omega) hhigh
    have hmod := digitChar_inj _ (by omega) _ (by omega) hlast
    exact ⟨Char.toNat_inj.mp (by omega), rfl⟩
  · exact absurd h.1.symm hplain'
  · exact absurd h.1 hplain
  · exact absurd h.1 hplain
  · exact h

theorem escape_ne_quote (c : Char) (r r' : List Char) : escape c ++ r ≠ '"' :: r' := by
  rcases escape_cases c with ⟨letter, -, hc⟩ | ⟨-, hc⟩ | ⟨-, hquote, hc⟩
  · simp [hc]
  · simp [hc]
  · simp [hc, hquote]

theorem quoted_inj : ∀ {s t : List Char} {r r' : List Char},
    s.flatMap escape ++ '"' :: r = t.flatMap escape ++ '"' :: r' → s = t ∧ r = r'
  | [], [], r, r', h => by simpa using h
  | [], d :: t, r, r', h => by
    simp only [flatMap_cons, append_assoc] at h
    exact absurd h.symm (escape_ne_quote d _ _)
  | c :: s, [], r, r', h => by
    simp only [flatMap_cons, append_assoc] at h
    exact absurd h (escape_ne_quote c _ _)
  | c :: s, d :: t, r, r', h => by
    simp only [flatMap_cons, append_assoc] at h
    obtain ⟨rfl, hrest⟩ := escape_append_inj h
    obtain ⟨rfl, hr⟩ := quoted_inj hrest
    exact ⟨rfl, hr⟩

/-! ## Tokens as text -/

def intText : Int → List Char
  | .ofNat n => Nat.toDigits 10 n
  | .negSucc n => '-' :: Nat.toDigits 10 (n + 1)

namespace Token

def text : Token → List Char
  | .null => "null".toList
  | .bool true => "true".toList
  | .bool false => "false".toList
  | .num value => intText value
  | .float value => value.text.toList
  | .str value => quoted value.toList
  | .openArr => ['[']
  | .closeArr => [']']
  | .openObj => ['{']
  | .closeObj => ['}']
  | .comma => [',']
  | .colon => [':']

/-- The tokens whose end shows only in what follows. -/
def isWord : Token → Bool
  | .null | .bool _ | .num _ | .float _ => true
  | _ => false

end Token

def separators : List Char := ['[', ']', '{', '}', ',', ':', '"']

def isIntText (text : List Char) : Bool := text.all fun c => c.isDigit || c = '-'

theorem isIntText_intText (n : Int) : isIntText (intText n) = true := by
  have hdigits : ∀ m, (Nat.toDigits 10 m).all (fun c => c.isDigit || c = '-') = true := by
    intro m
    refine List.all_eq_true.mpr fun c hc => ?_
    simp [Nat.isDigit_of_mem_toDigits (by decide) (by decide) hc]
  cases n with
  | ofNat m => exact hdigits m
  | negSucc m => simpa [isIntText, intText] using hdigits (m + 1)

theorem toDigits_injective : Function.Injective (Nat.toDigits 10) := by
  intro m n h
  rw [← @Nat.ofDigitChars_ten_toDigits m, ← @Nat.ofDigitChars_ten_toDigits n, h]

theorem dash_notMem_toDigits (n : Nat) : '-' ∉ Nat.toDigits 10 n := by
  intro h
  have := Nat.isDigit_of_mem_toDigits (by decide) (by decide) h
  exact absurd this (by decide)

theorem intText_injective : Function.Injective intText := by
  intro m n h
  cases m with
  | ofNat m =>
    cases n with
    | ofNat n => exact congrArg _ (toDigits_injective h)
    | negSucc n =>
      simp only [intText] at h
      exact absurd (h ▸ List.mem_cons_self) (dash_notMem_toDigits m)
  | negSucc m =>
    cases n with
    | ofNat n =>
      simp only [intText] at h
      exact absurd (h ▸ List.mem_cons_self) (dash_notMem_toDigits n)
    | negSucc n =>
      simp only [intText, List.cons.injEq, true_and] at h
      have := toDigits_injective h
      exact congrArg _ (by omega)

theorem isFloatText_cases {text : String} (h : isFloatText text = true) :
    text = "NaN" ∨ text = "Infinity" ∨ text = "-Infinity" ∨
      (∀ c ∈ text.toList, c.isDigit ∨ c ∈ ['.', 'e', '+', '-']) ∧
        ∃ c ∈ text.toList, c = '.' ∨ c = 'e' := by
  simpa [isFloatText, or_assoc] using h

theorem not_isIntText_of_isFloatText {text : String} (h : isFloatText text = true) :
    isIntText text.toList = false := by
  rcases isFloatText_cases h with rfl | rfl | rfl | ⟨-, c, hc, hpoint⟩
  · decide
  · decide
  · decide
  · refine List.all_eq_false.mpr ⟨c, hc, ?_⟩
    rcases hpoint with rfl | rfl <;> decide

theorem notMem_separators_of_all {text : List Char} (h : text.all (· ∉ separators) = true) :
    ∀ c ∈ text, c ∉ separators := by
  simpa using h

theorem notMem_separators_of_isDigit (h : c.isDigit = true) : c ∉ separators := by
  intro hmem
  have hall : separators.all (fun c => !c.isDigit) = true := by decide
  simpa [h] using List.all_eq_true.mp hall c hmem

theorem notMem_separators_of_isIntText {text : List Char} (h : isIntText text = true) :
    ∀ c ∈ text, c ∉ separators := by
  intro c hc
  have hchar := List.all_eq_true.mp h c hc
  rcases Bool.or_eq_true_iff.mp hchar with hdigit | hdash
  · exact notMem_separators_of_isDigit hdigit
  · rw [of_decide_eq_true hdash]
    decide

theorem notMem_separators_of_isFloatText {text : String} (h : isFloatText text = true) :
    ∀ c ∈ text.toList, c ∉ separators := by
  rcases isFloatText_cases h with rfl | rfl | rfl | ⟨hchars, -⟩
  · exact notMem_separators_of_all (by decide)
  · exact notMem_separators_of_all (by decide)
  · exact notMem_separators_of_all (by decide)
  · intro c hc
    rcases hchars c hc with hdigit | hsign
    · exact notMem_separators_of_isDigit hdigit
    · exact notMem_separators_of_all (by decide) c hsign

namespace Token

theorem text_ne_nil (t : Token) : t.text ≠ [] := by
  cases t with
  | bool value => cases value <;> simp [text]
  | num value => cases value <;> simp [text, intText, Nat.toDigits_ne_nil]
  | float value =>
    obtain ⟨literal, hfloat⟩ := value
    rcases isFloatText_cases hfloat with rfl | rfl | rfl | ⟨-, c, hc, -⟩
    · simp [text]
    · simp [text]
    · simp [text]
    · exact List.ne_nil_of_mem hc
  | str value => simp [text, quoted]
  | _ => simp [text]

variable {t : Token}

theorem notMem_separators (h : t.isWord = true) : ∀ c ∈ t.text, c ∉ separators := by
  cases t with
  | null => exact notMem_separators_of_all (by decide)
  | bool value => cases value <;> exact notMem_separators_of_all (by decide)
  | num value => exact notMem_separators_of_isIntText (isIntText_intText value)
  | float value => exact notMem_separators_of_isFloatText value.isFloat
  | _ => cases h

theorem head_text (h : t.isWord = false) : ∃ c r, t.text = c :: r ∧ c ∈ separators := by
  cases t with
  | str value => exact ⟨'"', _, rfl, by decide⟩
  | openArr => exact ⟨'[', [], rfl, by decide⟩
  | closeArr => exact ⟨']', [], rfl, by decide⟩
  | openObj => exact ⟨'{', [], rfl, by decide⟩
  | closeObj => exact ⟨'}', [], rfl, by decide⟩
  | comma => exact ⟨',', [], rfl, by decide⟩
  | colon => exact ⟨':', [], rfl, by decide⟩
  | _ => cases h

/-- Whether a text is one of an integer, and whether it is one of a float. -/
def shape (text : List Char) : Bool × Bool := (isIntText text, isFloatText (String.ofList text))

theorem shape_int (n : Int) : shape (intText n) = (true, false) := by
  have hnot : isFloatText (String.ofList (intText n)) = false := by
    refine Bool.eq_false_iff.mpr fun hfloat => ?_
    have hint := not_isIntText_of_isFloatText hfloat
    simp [isIntText_intText] at hint
  rw [shape, isIntText_intText, hnot]

theorem shape_float (value : FloatText) : shape value.text.toList = (false, true) := by
  simp [shape, not_isIntText_of_isFloatText value.isFloat, value.isFloat]

def names : List Token := [.null, .bool true, .bool false]

theorem shape_name : ∀ t ∈ names, shape t.text = (false, false) := by
  simp [names, text, shape, isIntText, isFloatText]

theorem name_text_inj : ∀ t ∈ names, ∀ t' ∈ names, t.text = t'.text → t = t' := by
  decide

theorem word_cases (h : t.isWord = true) :
    (t ∈ names ∧ shape t.text = (false, false)) ∨ (∃ n, t = .num n ∧ shape t.text = (true, false)) ∨
      ∃ value, t = .float value ∧ shape t.text = (false, true) := by
  cases t with
  | null => exact .inl ⟨by decide, shape_name _ (by decide)⟩
  | bool value => cases value <;> exact .inl ⟨by decide, shape_name _ (by decide)⟩
  | num n => exact .inr (.inl ⟨n, rfl, shape_int n⟩)
  | float value => exact .inr (.inr ⟨value, rfl, shape_float value⟩)
  | _ => cases h

/-- Beside words, only strings share their first character. -/
theorem cases_of_head_text {t t' : Token} (ht : t.isWord = false) (ht' : t'.isWord = false)
    (h : t.text.head? = t'.text.head?) : t = t' ∨ ∃ s s', t = .str s ∧ t' = .str s' := by
  cases t <;> cases t' <;> simp_all [text, isWord, quoted]

theorem word_text_inj {t t' : Token} (ht : t.isWord = true) (ht' : t'.isWord = true)
    (h : t.text = t'.text) : t = t' := by
  rcases word_cases ht with ⟨hname, hs⟩ | ⟨n, rfl, hs⟩ | ⟨value, rfl, hs⟩ <;>
    rcases word_cases ht' with ⟨hname', hs'⟩ | ⟨n', rfl, hs'⟩ | ⟨value', rfl, hs'⟩ <;>
    cases hs.symm.trans ((congrArg shape h).trans hs')
  · exact name_text_inj t hname t' hname' h
  · exact congrArg _ (intText_injective h)
  · cases value
    cases value'
    cases String.toList_injective h
    rfl

end Token

/-! ## Reading a text -/

def textOf (ts : List Token) : List Char := ts.flatMap Token.text

theorem textOf_cons (t : Token) (ts : List Token) : textOf (t :: ts) = t.text ++ textOf ts :=
  flatMap_cons

theorem textOf_append (ts ts' : List Token) : textOf (ts ++ ts') = textOf ts ++ textOf ts' :=
  flatMap_append

def Ends (r : List Char) : Prop := ∀ c r', r = c :: r' → c ∈ separators

theorem word_append_inj (hw : ∀ c ∈ w, c ∉ separators)
    (hw' : ∀ c ∈ w', c ∉ separators) (hr : Ends r) (hr' : Ends r') (h : w ++ r = w' ++ r') :
    w = w' ∧ r = r' := by
  have htake : ∀ {w r : List Char}, (∀ c ∈ w, c ∉ separators) → Ends r →
      (w ++ r).takeWhile (fun c => c ∉ separators) = w := by
    intro w r hw hr
    rw [takeWhile_append_of_pos (by simpa using hw)]
    cases r with
    | nil => simp
    | cons c r => simp [hr c r rfl]
  obtain rfl : w = w' := by rw [← htake hw hr, ← htake hw' hr', h]
  exact ⟨rfl, append_cancel_left h⟩

theorem word_append_ne {t t' : Token} {r r' : List Char} (ht : t.isWord = true)
    (ht' : t'.isWord = false) : t.text ++ r ≠ t'.text ++ r' := by
  obtain ⟨c, rest, htext⟩ := exists_cons_of_ne_nil t.text_ne_nil
  obtain ⟨c', rest', htext', hc'⟩ := Token.head_text ht'
  have hc : c ∉ separators := Token.notMem_separators ht c (htext ▸ mem_cons_self)
  rw [htext, htext']
  intro h
  exact hc ((cons.inj h).1 ▸ hc')

/-- A token is read alone, a word as far as it ends. -/
theorem token_append_inj {t t' : Token} {r r' : List Char} (hr : t.isWord = false ∨ Ends r)
    (hr' : t'.isWord = false ∨ Ends r') (h : t.text ++ r = t'.text ++ r') : t = t' ∧ r = r' := by
  cases ht : t.isWord with
  | true =>
    cases ht' : t'.isWord with
    | true =>
      simp only [ht, ht', reduceCtorEq, false_or] at hr hr'
      obtain ⟨htext, hrest⟩ := word_append_inj (Token.notMem_separators ht)
        (Token.notMem_separators ht') hr hr' h
      exact ⟨Token.word_text_inj ht ht' htext, hrest⟩
    | false => exact absurd h (word_append_ne ht ht')
  | false =>
    cases ht' : t'.isWord with
    | true => exact absurd h.symm (word_append_ne ht' ht)
    | false =>
      have hhead : t.text.head? = t'.text.head? := by
        obtain ⟨c, rest, htext, -⟩ := Token.head_text ht
        obtain ⟨c', rest', htext', -⟩ := Token.head_text ht'
        rw [htext, htext'] at h ⊢
        exact congrArg some (cons.inj h).1
      rcases Token.cases_of_head_text ht ht' hhead with rfl | ⟨s, s', rfl, rfl⟩
      · exact ⟨rfl, append_cancel_left h⟩
      · simp only [Token.text, quoted, cons_append, append_assoc, nil_append,
          cons.injEq, true_and] at h
        obtain ⟨hstring, hrest⟩ := quoted_inj h
        exact ⟨congrArg _ (String.toList_injective hstring), hrest⟩

theorem ends_body (document : Json) (hr : Ends r) :
    document.head.isWord = false ∨ Ends (textOf document.body ++ r) := by
  cases document with
  | arr => exact .inl rfl
  | obj => exact .inl rfl
  | _ => exact .inr hr

theorem ends_moreItems (items : List Json) (r : List Char) :
    Ends (textOf (moreItems items) ++ r) := by
  rintro c r' h
  cases items <;> exact (cons.inj h).1 ▸ by decide

theorem ends_moreFields (fields : List (String × Json)) (r : List Char) :
    Ends (textOf (moreFields fields) ++ r) := by
  rintro c r' h
  cases fields <;> exact (cons.inj h).1 ▸ by decide

theorem itemTokens_of_more (h : textOf (moreItems xs) ++ r = textOf (moreItems ys) ++ r') :
    textOf (itemTokens xs) ++ r = textOf (itemTokens ys) ++ r' := by
  cases xs <;> cases ys
  · exact h
  · cases h
  · cases h
  · exact (cons.inj h).2

theorem fieldTokens_of_more (h : textOf (moreFields fs) ++ r = textOf (moreFields gs) ++ r') :
    textOf (fieldTokens fs) ++ r = textOf (fieldTokens gs) ++ r' := by
  cases fs <;> cases gs
  · exact h
  · cases h
  · cases h
  · exact (cons.inj h).2

mutual
theorem document_inj {a b : Json} {r r' : List Char} (hr : Ends r) (hr' : Ends r')
    (h : a.head.text ++ (textOf a.body ++ r) = b.head.text ++ (textOf b.body ++ r')) :
    a = b ∧ r = r' := by
  obtain ⟨hhead, h⟩ := token_append_inj (ends_body a hr) (ends_body b hr') h
  rcases cases_of_head hhead with rfl | ⟨xs, ys, rfl, rfl⟩ | ⟨fs, gs, rfl, rfl⟩
  · exact ⟨rfl, append_cancel_left h⟩
  · obtain ⟨rfl, hr⟩ := itemTokens_inj h
    exact ⟨rfl, hr⟩
  · obtain ⟨rfl, hr⟩ := fieldTokens_inj h
    exact ⟨rfl, hr⟩
theorem itemTokens_inj (h : textOf (itemTokens xs) ++ r = textOf (itemTokens ys) ++ r') :
    xs = ys ∧ r = r' := by
  match xs, ys with
  | [], [] => exact ⟨rfl, (cons.inj h).2⟩
  | [], y :: ys =>
    simp only [itemTokens, textOf_cons, textOf_append, append_assoc] at h
    exact absurd (token_append_inj (.inl rfl) (ends_body y (ends_moreItems ys r')) h).1.symm
      (head_ne_closeArr y)
  | x :: xs, [] =>
    simp only [itemTokens, textOf_cons, textOf_append, append_assoc] at h
    exact absurd (token_append_inj (ends_body x (ends_moreItems xs r)) (.inl rfl) h).1
      (head_ne_closeArr x)
  | x :: xs, y :: ys =>
    simp only [itemTokens, textOf_cons, textOf_append, append_assoc] at h
    obtain ⟨rfl, hrest⟩ := document_inj (ends_moreItems xs r) (ends_moreItems ys r') h
    obtain ⟨rfl, hr⟩ := itemTokens_inj (itemTokens_of_more hrest)
    exact ⟨rfl, hr⟩
theorem fieldTokens_inj (h : textOf (fieldTokens fs) ++ r = textOf (fieldTokens gs) ++ r') :
    fs = gs ∧ r = r' := by
  match fs, gs with
  | [], [] => exact ⟨rfl, (cons.inj h).2⟩
  | [], (key, value) :: gs => cases h
  | (key, value) :: fs, [] => cases h
  | (key, value) :: fs, (key', value') :: gs =>
    simp only [fieldTokens, textOf_cons, textOf_append, append_assoc] at h
    obtain ⟨hkey, hvalue⟩ := token_append_inj (.inl rfl) (.inl rfl) h
    cases hkey
    obtain ⟨rfl, hrest⟩ := document_inj (ends_moreFields fs r) (ends_moreFields gs r')
      (append_cancel_left hvalue)
    obtain ⟨rfl, hr⟩ := fieldTokens_inj (fieldTokens_of_more hrest)
    exact ⟨rfl, hr⟩
end

/-- The text of a document in the order of its fields. -/
def text (document : Json) : List Char := textOf document.tokens

theorem text_injective : Function.Injective text := by
  intro a b h
  have happend : a.text ++ [] = b.text ++ [] := congrArg (· ++ []) h
  simp only [text, tokens, textOf_cons, append_assoc] at happend
  exact (document_inj (by simp [Ends]) (by simp [Ends]) happend).1

theorem tokens_injective : Function.Injective tokens :=
  fun _ _ h => text_injective (congrArg textOf h)

instance : DecidableEq Json := fun _ _ => decidable_of_iff _ tokens_injective.eq_iff

/-! ## The order of keys -/

mutual
def WellFormed : Json → Prop
  | .arr items => WellFormedItems items
  | .obj fields => (fields.map fst).Nodup ∧ WellFormedFields fields
  | _ => True
def WellFormedItems : List Json → Prop
  | [] => True
  | item :: rest => item.WellFormed ∧ WellFormedItems rest
def WellFormedFields : List (String × Json) → Prop
  | [] => True
  | (_, value) :: rest => value.WellFormed ∧ WellFormedFields rest
end

mutual
/-- Equality up to the order of the keys of objects. -/
inductive Same : Json → Json → Prop
  | refl (document : Json) : Same document document
  | symm {a b : Json} (h : Same a b) : Same b a
  | trans {a b c : Json} (h : Same a b) (h' : Same b c) : Same a c
  | arr {xs ys : List Json} (h : SameItems xs ys) : Same (.arr xs) (.arr ys)
  | obj {fs gs : List (String × Json)} (h : SameFields fs gs) : Same (.obj fs) (.obj gs)
inductive SameItems : List Json → List Json → Prop
  | nil : SameItems [] []
  | cons {x y : Json} {xs ys : List Json} (h : Same x y) (hrest : SameItems xs ys) :
    SameItems (x :: xs) (y :: ys)
inductive SameFields : List (String × Json) → List (String × Json) → Prop
  | nil : SameFields [] []
  | cons {key : String} {v w : Json} {fs gs : List (String × Json)} (h : Same v w)
    (hrest : SameFields fs gs) : SameFields ((key, v) :: fs) ((key, w) :: gs)
  | swap (f g : String × Json) (rest : List (String × Json)) :
    SameFields (f :: g :: rest) (g :: f :: rest)
  | trans {fs gs hs : List (String × Json)} (h : SameFields fs gs) (h' : SameFields gs hs) :
    SameFields fs hs
end

mutual
def sortKeys : Json → Json
  | .arr items => .arr (sortItems items)
  | .obj fields => .obj (sortFields fields)
  | document => document
def sortItems : List Json → List Json
  | [] => []
  | item :: rest => item.sortKeys :: sortItems rest
def sortFields : List (String × Json) → List (String × Json)
  | [] => []
  | (key, value) :: rest =>
    (sortFields rest).orderedInsert (fun f g => f.1 ≤ g.1) (key, value.sortKeys)
end

/-- `json.dumps(…, sort_keys=True, separators=(",", ":"), ensure_ascii=False)` -/
def dumps (document : Json) : String := String.ofList document.sortKeys.text

theorem SameFields.refl : ∀ fields, SameFields fields fields
  | [] => .nil
  | (_, value) :: rest => .cons (.refl value) (refl rest)

theorem sameFields_orderedInsert (field : String × Json) : ∀ fields,
    SameFields (field :: fields) (fields.orderedInsert (fun f g => f.1 ≤ g.1) field)
  | [] => .refl _
  | other :: rest => by
    rw [orderedInsert_cons]
    split
    · exact .refl _
    · exact .trans (.swap field other rest)
        (.cons (.refl other.2) (sameFields_orderedInsert field rest))

mutual
theorem same_sortKeys (document : Json) : Same document document.sortKeys := by
  match document with
  | .arr items => exact .arr (same_sortItems items)
  | .obj fields => exact .obj (same_sortFields fields)
  | .null | .bool _ | .num _ | .float _ | .str _ => exact .refl _
theorem same_sortItems (items : List Json) : SameItems items (sortItems items) := by
  match items with
  | [] => exact .nil
  | item :: rest => exact .cons (same_sortKeys item) (same_sortItems rest)
theorem same_sortFields (fields : List (String × Json)) :
    SameFields fields (sortFields fields) := by
  match fields with
  | [] => exact .nil
  | (key, value) :: rest =>
    exact .trans (.cons (same_sortKeys value) (same_sortFields rest)) (sameFields_orderedInsert _ _)
end

theorem pairwise_sortFields : ∀ fields : List (String × Json),
    (sortFields fields).Pairwise fun f g => f.1 ≤ g.1
  | [] => .nil
  | (key, value) :: rest => by
    rw [sortFields]
    exact (pairwise_sortFields rest).orderedInsert _ _

theorem keys_sortFields : ∀ fields : List (String × Json),
    ((sortFields fields).map fst).Perm (fields.map fst)
  | [] => .nil
  | (key, value) :: rest => by
    rw [sortFields]
    exact ((perm_orderedInsert _ _ _).map fst).trans ((keys_sortFields rest).cons key)

theorem sortFields_swap (h : ((f :: g :: rest).map fst).Nodup) :
    sortFields (f :: g :: rest) = sortFields (g :: f :: rest) := by
  obtain ⟨key, value⟩ := f
  obtain ⟨key', value'⟩ := g
  have hperm : (sortFields ((key, value) :: (key', value') :: rest)).Perm
      (sortFields ((key', value') :: (key, value) :: rest)) := by
    simp only [sortFields]
    refine (perm_orderedInsert _ _ _).trans ?_
    refine ((perm_orderedInsert _ _ _).cons _).trans ?_
    refine (Perm.swap _ _ _).trans ?_
    exact ((perm_orderedInsert _ _ _).cons _).symm.trans
      (perm_orderedInsert _ _ _).symm
  have hnodup := (keys_sortFields ((key, value) :: (key', value') :: rest)).nodup_iff.mpr h
  refine hperm.eq_of_pairwise (fun a b ha hb hab hba => ?_) (pairwise_sortFields _)
    (pairwise_sortFields _)
  exact inj_on_of_nodup_map hnodup ha (hperm.mem_iff.mpr hb) (le_antisymm hab hba)

mutual
theorem Same.sorted (h : Same a b) :
    (a.WellFormed ↔ b.WellFormed) ∧ (a.WellFormed → a.sortKeys = b.sortKeys) := by
  match h with
  | .refl _ => exact ⟨.rfl, fun _ => rfl⟩
  | .symm h =>
    obtain ⟨hiff, heq⟩ := h.sorted
    exact ⟨hiff.symm, fun hb => (heq (hiff.mpr hb)).symm⟩
  | .trans h h' =>
    obtain ⟨hiff, heq⟩ := h.sorted
    obtain ⟨hiff', heq'⟩ := h'.sorted
    exact ⟨hiff.trans hiff', fun ha => (heq ha).trans (heq' (hiff.mp ha))⟩
  | .arr h =>
    obtain ⟨hiff, heq⟩ := h.sorted
    exact ⟨hiff, fun ha => congrArg Json.arr (heq ha)⟩
  | .obj h =>
    obtain ⟨hkeys, hiff, heq⟩ := h.sorted
    exact ⟨and_congr hkeys.nodup_iff hiff, fun ha => congrArg Json.obj (heq ha.1 ha.2)⟩
theorem SameItems.sorted (h : SameItems xs ys) : (WellFormedItems xs ↔ WellFormedItems ys) ∧
      (WellFormedItems xs → sortItems xs = sortItems ys) := by
  match h with
  | .nil => exact ⟨.rfl, fun _ => rfl⟩
  | .cons h hrest =>
    obtain ⟨hiff, heq⟩ := h.sorted
    obtain ⟨hiff', heq'⟩ := hrest.sorted
    exact ⟨and_congr hiff hiff', fun hx => congrArg₂ cons (heq hx.1) (heq' hx.2)⟩
theorem SameFields.sorted (h : SameFields fs gs) :
    (fs.map fst).Perm (gs.map fst) ∧ (WellFormedFields fs ↔ WellFormedFields gs) ∧
      ((fs.map fst).Nodup → WellFormedFields fs → sortFields fs = sortFields gs) := by
  match h with
  | .nil => exact ⟨.nil, .rfl, fun _ _ => rfl⟩
  | .cons h hrest =>
    obtain ⟨hiff, heq⟩ := h.sorted
    obtain ⟨hkeys, hiff', heq'⟩ := hrest.sorted
    refine ⟨hkeys.cons _, and_congr hiff hiff', fun hnodup hformed => ?_⟩
    simp only [sortFields]
    rw [heq hformed.1, heq' (nodup_cons.mp hnodup).2 hformed.2]
  | .swap f g rest =>
    refine ⟨.swap _ _ _, and_left_comm, fun hnodup _ => sortFields_swap hnodup⟩
  | .trans h h' =>
    obtain ⟨hkeys, hiff, heq⟩ := h.sorted
    obtain ⟨hkeys', hiff', heq'⟩ := h'.sorted
    refine ⟨hkeys.trans hkeys', hiff.trans hiff', fun hnodup hformed => ?_⟩
    exact (heq hnodup hformed).trans (heq' (hkeys.nodup_iff.mp hnodup) (hiff.mp hformed))
end

theorem sortKeys_of_dumps {a b : Json} (h : a.dumps = b.dumps) : a.sortKeys = b.sortKeys :=
  text_injective (String.ofList_injective h)

theorem same_of_sortKeys (h : a.sortKeys = b.sortKeys) : Same a b :=
  (same_sortKeys a).trans (h ▸ (same_sortKeys b).symm)

/-- The texts of two documents are equal just if the documents are, up to the order of keys. -/
theorem dumps_eq_iff {a b : Json} (ha : a.WellFormed) : a.dumps = b.dumps ↔ Same a b := by
  refine ⟨fun h => same_of_sortKeys (sortKeys_of_dumps h), fun h => ?_⟩
  rw [dumps, dumps, h.sorted.2 ha]

theorem mem_sortFields : ∀ {fields : List (String × Json)},
    (key, value) ∈ fields → (key, value.sortKeys) ∈ sortFields fields
  | (key', value') :: rest, h => by
    rw [sortFields, mem_orderedInsert]
    rcases mem_cons.mp h with heq | hrest
    · cases heq
      exact .inl rfl
    · exact .inr (mem_sortFields hrest)

/-- Two objects with the same sorted text agree on a key that they both have. -/
theorem sortKeys_of_obj (key : String)
    (h : (obj fs).sortKeys = (obj gs).sortKeys) (hnodup : (gs.map fst).Nodup)
    (hv : (key, v) ∈ fs) (hw : (key, w) ∈ gs) : v.sortKeys = w.sortKeys := by
  have hfields : sortFields fs = sortFields gs := by simpa [sortKeys] using h
  have hv' : (key, v.sortKeys) ∈ sortFields gs := hfields ▸ mem_sortFields hv
  have hnodup' := (keys_sortFields gs).nodup_iff.mpr hnodup
  exact congrArg snd (inj_on_of_nodup_map hnodup' hv' (mem_sortFields hw) rfl)

theorem text_of_obj (key : String)
    (h : (obj fs).sortKeys = (obj gs).sortKeys) (hnodup : (gs.map fst).Nodup)
    (hv : (key, str s) ∈ fs) (hw : (key, str s') ∈ gs) : s = s' := by
  have hsorted := sortKeys_of_obj key h hnodup hv hw
  simpa [sortKeys] using hsorted

end Json
