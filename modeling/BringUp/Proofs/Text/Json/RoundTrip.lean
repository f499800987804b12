import BringUp.Text.Json.Printer
import BringUp.Text.Json.Reader

/-!
This module contains how JSON text is read that was written on one line. The main statement is that
the value is read that was written.
-/

namespace BringUp.Json

/--
Whether the numbers in a value that are no integers are written as numbers that are no integers.
-/
inductive Proper : Json → Prop where
  | null : Proper .null
  | bool (b : Bool) : Proper (.bool b)
  | integer (n : Int) : Proper (.integer n)
  | decimal (literal : String) (hchars : ∀ c ∈ literal.toList, isWordChar c = true)
      (hvalue : ofWord? literal.toList = some (.decimal literal)) : Proper (.decimal literal)
  | string (s : String) : Proper (.string s)
  | array (items : List Json) (hitems : ∀ v ∈ items, Proper v) : Proper (.array items)
  | object (members : List (String × Json)) (hmembers : ∀ m ∈ members, Proper m.2)
      : Proper (.object members)

attribute [simp] Proper.null Proper.bool Proper.integer Proper.string

@[simp]
theorem proper_array {items : List Json} : Proper (.array items) ↔ ∀ v ∈ items, Proper v :=
  ⟨fun | .array _ hitems => hitems, .array items⟩

@[simp]
theorem proper_object {members : List (String × Json)}
    : Proper (.object members) ↔ ∀ m ∈ members, Proper m.2 :=
  ⟨fun | .object _ hmembers => hmembers, .object members⟩

@[simp]
theorem Proper.ofNat (n : Nat) : Proper (.ofNat n) := .integer n

@[simp]
theorem Proper.ofOption {α : Type} {f : α → Json} (hf : ∀ a, Proper (f a)) (a : Option α)
    : Proper (.ofOption f a) := by
  cases a with
  | none => exact .null
  | some a => exact hf a

mutual

def tokens : Json → List Token
  | null => [.word ['n', 'u', 'l', 'l']]
  | bool true => [.word ['t', 'r', 'u', 'e']]
  | bool false => [.word ['f', 'a', 'l', 's', 'e']]
  | integer n => [.word (toString n).toList]
  | decimal literal => [.word literal.toList]
  | string s => [.text s]
  | array items => .openArray :: [.comma].intercalate (itemTokens items) ++ [.closeArray]
  | object members => .openObject :: [.comma].intercalate (memberTokens members) ++ [.closeObject]

def itemTokens : List Json → List (List Token)
  | [] => []
  | v :: vs => tokens v :: itemTokens vs

def memberTokens : List (String × Json) → List (List Token)
  | [] => []
  | (k, v) :: ms => (.text k :: .colon :: tokens v) :: memberTokens ms

end

def Separated (rest : List Char) : Prop := ∀ c ∈ rest.head?, isWordChar c = false

/--
Whether a text is cut into tokens wherever it stands.
-/
def Cut (text : List Char) (ts : List Token) : Prop :=
  ∀ rest, Separated rest → tokens?.go .blank (text ++ rest) = (tokens?.go .blank rest).map (ts ++ ·)

section

variable {c : Char} {cs rest text more : List Char} {ts us : List Token} {s next : Scan}

theorem separated_nil : Separated [] :=
  fun _ hc => nomatch hc

theorem separated_cons (hc : isWordChar c = false) : Separated (c :: rest) :=
  fun _ hx => Option.some.inj hx ▸ hc

/-! Cutting a text into tokens -/

theorem go_cons (hstep : scanStep s c = some (next, ts))
    : tokens?.go s (c :: rest) = (tokens?.go next rest).map (ts ++ ·) := by
  cases hrest : tokens?.go next rest <;> simp [tokens?.go, hstep, hrest]

theorem go_cons_silent (hstep : scanStep s c = some (next, []))
    : tokens?.go s (c :: rest) = tokens?.go next rest := by
  simp [go_cons hstep]

theorem scanPlain_wordChar (hc : isWordChar c = true) : scanPlain c = some (.word [c], []) := by
  have hne {x : Char} (hx : isWordChar x = false) : c ≠ x := by
    rintro rfl
    rw [hx] at hc
    cases hc
  have hblank : isBlank c = false := by
    simp [isBlank, hne (x := ' ') (by decide), hne (x := '\n') (by decide),
      hne (x := '\t') (by decide), hne (x := '\r') (by decide)]
  simp [scanPlain, hblank, hc, hne (x := '[') (by decide), hne (x := ']') (by decide),
    hne (x := '\x7b') (by decide), hne (x := '\x7d') (by decide), hne (x := ':') (by decide),
    hne (x := ',') (by decide), hne (x := '"') (by decide)]

theorem go_word (htext : ∀ c ∈ text, isWordChar c = true) (hrest : Separated rest)
    : tokens?.go (.word cs) (text ++ rest) =
        (tokens?.go .blank rest).map (.word (cs.reverse ++ text) :: ·) := by
  induction text generalizing cs with
  | nil =>
    cases rest with
    | nil => simp [tokens?.go]
    | cons c rest =>
      have hc : isWordChar c = false := hrest c rfl
      cases hplain : scanPlain c with
      | none => simp [tokens?.go, scanStep, hc, hplain]
      | some r =>
        obtain ⟨next, ts⟩ := r
        have hstep : scanStep (.word cs) c = some (next, .word cs.reverse :: ts) := by
          simp [scanStep, hc, hplain]
        rw [List.nil_append, go_cons hstep, go_cons (s := .blank) hplain]
        simp [Function.comp_def]
  | cons c text ih =>
    have hstep : scanStep (.word cs) c = some (.word (c :: cs), []) := by
      simp [scanStep, htext c List.mem_cons_self]
    rw [List.cons_append, go_cons_silent hstep, ih fun x hx => htext x (List.mem_cons_of_mem _ hx)]
    simp

theorem cut_word (hne : text ≠ []) (htext : ∀ c ∈ text, isWordChar c = true)
    : Cut text [.word text] := by
  intro rest hrest
  obtain ⟨c, text, rfl⟩ := List.exists_cons_of_ne_nil hne
  have hstep : scanStep .blank c = some (.word [c], []) :=
    scanPlain_wordChar (htext c List.mem_cons_self)
  rw [List.cons_append, go_cons_silent hstep,
    go_word (fun x hx => htext x (List.mem_cons_of_mem _ hx)) hrest]
  rfl

theorem digitValue_digitChar : ∀ d < 16, Number.digitValue (Nat.digitChar d) = d := by
  decide

theorem go_hexDigit {value owed d : Nat} (hd : d < 16) (howed : 1 < owed)
    : tokens?.go (.code cs none owed value) (Nat.digitChar d :: rest) =
        tokens?.go (.code cs none (owed - 1) (16 * value + d)) rest := by
  refine go_cons_silent ?_
  simp [scanStep, digitValue_digitChar d hd, Nat.not_le.mpr hd, Nat.not_le.mpr howed]

theorem go_hexDigits {n : Nat} (hn : n < 0x10000) (hfinish : finishCode cs none n = some next)
    : tokens?.go (.code cs none 4 0) (Number.hexDigits 4 n ++ rest) = tokens?.go next rest := by
  have hdigits : Number.hexDigits 4 n =
      [Nat.digitChar (n / 4096 % 16), Nat.digitChar (n / 256 % 16), Nat.digitChar (n / 16 % 16),
        Nat.digitChar (n % 16)] := by
    simp [Number.hexDigits, List.range_succ, Nat.shiftRight_eq_div_pow]
  have hvalue : 16 * (16 * (16 * (16 * 0 + n / 4096 % 16) + n / 256 % 16) + n / 16 % 16) + n % 16 =
      n := by
    omega
  have hlast : n % 16 < 16 := by omega
  rw [hdigits, List.cons_append, go_hexDigit (by omega) (by omega), List.cons_append,
    go_hexDigit (by omega) (by omega), List.cons_append, go_hexDigit (by omega) (by omega),
    List.cons_append, List.nil_append]
  refine go_cons_silent ?_
  simp only [scanStep, digitValue_digitChar _ hlast, if_neg (Nat.not_le.mpr hlast), hvalue, hfinish]
  rfl

theorem go_backslash : tokens?.go (.text cs) ('\\' :: rest) = tokens?.go (.escape cs) rest :=
  go_cons_silent rfl

theorem go_unescape {x : Char} (hx : unescape? x = some c) (hu : x ≠ 'u')
    : tokens?.go (.text cs) ('\\' :: x :: rest) = tokens?.go (.text (c :: cs)) rest := by
  rw [go_backslash, go_cons_silent]
  simp [scanStep, hu, hx]

theorem go_escapeChar (c : Char)
    : tokens?.go (.text cs) (escapeChar c ++ rest) = tokens?.go (.text (c :: cs)) rest := by
  unfold escapeChar
  iterate 7
    split
    . next hc =>
      subst hc
      exact go_unescape rfl (by decide)
  split
  . next hcontrol =>
    have hfinish : finishCode cs none c.toNat = some (.text (c :: cs)) := by
      simp only [finishCode]
      rw [if_neg (by omega), if_neg (by omega), Char.ofNat_toNat]
    have hcode : scanStep (.escape cs) 'u' = some (.code cs none 4 0, []) := rfl
    rw [List.cons_append, List.cons_append, go_backslash, go_cons_silent hcode,
      go_hexDigits (by omega) hfinish]
  . next hquote hbackslash _ _ _ _ _ hcontrol =>
    refine go_cons_silent ?_
    simp [scanStep, hquote, hbackslash, hcontrol]

theorem go_text (text : List Char)
    : tokens?.go (.text cs) (text.flatMap escapeChar ++ '"' :: rest) =
        (tokens?.go .blank rest).map (.text (String.ofList (cs.reverse ++ text)) :: ·) := by
  induction text generalizing cs with
  | nil =>
    have hstep : scanStep (.text cs) '"' = some (.blank, [.text (String.ofList cs.reverse)]) := rfl
    rw [List.flatMap_nil, List.nil_append, go_cons hstep, List.append_nil]
    rfl
  | cons c text ih =>
    rw [List.flatMap_cons, List.append_assoc, go_escapeChar, ih]
    simp

theorem cut_quote (t : String) : Cut (quote t).toList [.text t] := by
  intro rest _
  have hquote : (quote t).toList ++ rest = '"' :: (t.toList.flatMap escapeChar ++ '"' :: rest) := by
    simp [quote]
  have hstep : scanStep .blank '"' = some (.text [], []) := rfl
  rw [hquote, go_cons_silent hstep, go_text]
  simp

theorem cut_nil : Cut [] [] := by
  intro rest _
  simp

theorem Cut.append (hfirst : Cut text ts) (hsecond : Cut more us)
    (hmore : ∀ rest, Separated rest → Separated (more ++ rest))
    : Cut (text ++ more) (ts ++ us) := by
  intro rest hrest
  rw [List.append_assoc, hfirst _ (hmore rest hrest), hsecond rest hrest]
  simp [Function.comp_def]

theorem Cut.cons (htext : Cut text ts) (hc : scanPlain c = some (.blank, us))
    : Cut (c :: text) (us ++ ts) := by
  intro rest hrest
  rw [List.cons_append, go_cons (s := .blank) hc, htext rest hrest]
  simp [Function.comp_def]

theorem Cut.mark (hfirst : Cut text ts) (hsecond : Cut more us) (hmark : isWordChar c = false)
    (hc : scanPlain c = some (.blank, [token]))
    : Cut (text ++ c :: more) (ts ++ token :: us) :=
  hfirst.append (hsecond.cons hc) fun _ _ => separated_cons hmark

theorem cut_intercalate {α : Type} {xs : List α} {f : α → String} {g : α → List Token}
    (hcut : ∀ x ∈ xs, Cut (f x).toList (g x))
    : Cut (String.intercalate "," (xs.map f)).toList ([Token.comma].intercalate (xs.map g)) := by
  rw [String.toList_intercalate]
  induction xs with
  | nil => exact cut_nil
  | cons x xs ih =>
    have hx := hcut x List.mem_cons_self
    have hxs := ih fun y hy => hcut y (List.mem_cons_of_mem _ hy)
    cases xs with
    | nil => simpa using hx
    | cons y ys => simpa using hx.mark hxs (c := ',') rfl rfl

theorem compactItems_eq_map (items : List Json) : compactItems items = items.map compact := by
  induction items with
  | nil => rfl
  | cons v vs ih => rw [compactItems, ih, List.map_cons]

theorem compactMembers_eq_map (members : List (String × Json))
    : compactMembers members = members.map fun m => quote m.1 ++ ":" ++ compact m.2 := by
  induction members with
  | nil => rfl
  | cons m ms ih => rw [compactMembers, ih, List.map_cons]

theorem itemTokens_eq_map (items : List Json) : itemTokens items = items.map tokens := by
  induction items with
  | nil => rfl
  | cons v vs ih => rw [itemTokens, ih, List.map_cons]

theorem memberTokens_eq_map (members : List (String × Json))
    : memberTokens members = members.map fun m => .text m.1 :: .colon :: tokens m.2 := by
  induction members with
  | nil => rfl
  | cons m ms ih => rw [memberTokens, ih, List.map_cons]

/-! Words that stand for numbers -/

theorem isWordChar_of_isDigit (hc : c.isDigit = true) : isWordChar c = true := by
  simp [isWordChar, Char.isAlphanum, hc]

theorem isDigits_toDigits (n : Nat) : isDigits (Nat.toDigits 10 n) = true := by
  have hdigits : (Nat.toDigits 10 n).all Char.isDigit = true :=
    List.all_eq_true.mpr fun c hc => Nat.isDigit_of_mem_toDigits (by omega) (by omega) hc
  simp [isDigits, hdigits, Nat.toDigits_ne_nil]

theorem digitChar_ne_zero : ∀ d < 10, d ≠ 0 → Nat.digitChar d ≠ '0' := by
  decide

theorem head?_toDigits {n : Nat} (hn : n ≠ 0) : (Nat.toDigits 10 n).head? ≠ some '0' := by
  rw [Nat.toDigits_eq_if (by omega)]
  split
  . next hlt => simpa using digitChar_ne_zero n hlt hn
  . have hfront := head?_toDigits (n := n / 10) (by omega)
    obtain ⟨d, ds, hds⟩ := List.exists_cons_of_ne_nil (Nat.toDigits_ne_nil (n := n / 10) (b := 10))
    rw [hds] at hfront ⊢
    exact hfront

theorem isWhole_toDigits (n : Nat) : isWhole (Nat.toDigits 10 n) = true := by
  rw [isWhole, isDigits_toDigits, Bool.true_and]
  by_cases hn : n = 0
  . rw [hn]
    rfl
  . simp [head?_toDigits hn]

theorem ofWord?_nil : ofWord? [] = none :=
  rfl

theorem ofWord?_isWhole (hwhole : isWhole text = true)
    : ofWord? text = some (.integer (Nat.ofDigitChars 10 text 0)) := by
  have hne {name : List Char} (hname : isWhole name = false) : text ≠ name := by
    rintro rfl
    rw [hname] at hwhole
    cases hwhole
  rw [ofWord?, if_neg (hne rfl), if_neg (hne rfl), if_neg (hne rfl), if_pos hwhole]

theorem ofWord?_negative (hwhole : isWhole text = true) (hzero : text ≠ ['0'])
    : ofWord? ('-' :: text) = some (.integer (-(Nat.ofDigitChars 10 text 0 : Int))) := by
  have hsign : isWhole ('-' :: text) = false := rfl
  have hne (name : List Char) (hname : name.head? ≠ some '-') : '-' :: text ≠ name := by
    rintro rfl
    exact hname rfl
  rw [ofWord?, if_neg (hne _ (by decide)), if_neg (hne _ (by decide)), if_neg (hne _ (by decide)),
    hsign, if_neg Bool.false_ne_true, if_pos ⟨rfl, hwhole, by simpa using hzero⟩]
  rfl

theorem toList_toString (n : Int)
    : (toString n).toList =
        if 0 ≤ n then Nat.toDigits 10 n.toNat else '-' :: Nat.toDigits 10 (-n).toNat := by
  cases n with
  | ofNat m =>
    have hnonneg : 0 ≤ Int.ofNat m := Int.natCast_nonneg m
    rw [if_pos hnonneg]
    exact Nat.toList_repr
  | negSucc m =>
    have htext : toString (Int.negSucc m) = "-" ++ m.succ.repr := rfl
    rw [if_neg (Int.not_le.mpr (Int.negSucc_lt_zero m)), htext, String.toList_append,
      Nat.toList_repr]
    rfl

theorem ofWord?_toString (n : Int) : ofWord? (toString n).toList = some (.integer n) := by
  rw [toList_toString]
  split
  . rw [ofWord?_isWhole (isWhole_toDigits _), Nat.ofDigitChars_toDigits (by omega) (by omega)]
    congr
    omega
  . have hne : (-n).toNat ≠ 0 := by omega
    have hzero : Nat.toDigits 10 (-n).toNat ≠ ['0'] := by
      intro hdigits
      exact head?_toDigits hne (congrArg List.head? hdigits)
    rw [ofWord?_negative (isWhole_toDigits _) hzero,
      Nat.ofDigitChars_toDigits (by omega) (by omega)]
    congr
    omega

theorem toString_wordChars (n : Int)
    : (toString n).toList ≠ [] ∧ ∀ c ∈ (toString n).toList, isWordChar c = true := by
  have hdigits (m : Nat) : ∀ c ∈ Nat.toDigits 10 m, isWordChar c = true := fun c hc =>
    isWordChar_of_isDigit (Nat.isDigit_of_mem_toDigits (by omega) (by omega) hc)
  rw [toList_toString]
  split
  . exact ⟨Nat.toDigits_ne_nil, hdigits _⟩
  . exact ⟨by simp, List.forall_mem_cons.mpr ⟨rfl, hdigits _⟩⟩

theorem Proper.cut (proper : Proper v) : Cut (compact v).toList v.tokens := by
  induction proper with
  | null => exact cut_word (List.cons_ne_nil _ _) (List.all_eq_true.mp rfl)
  | bool b =>
    cases b with
    | true => exact cut_word (List.cons_ne_nil _ _) (List.all_eq_true.mp rfl)
    | false => exact cut_word (List.cons_ne_nil _ _) (List.all_eq_true.mp rfl)
  | integer n =>
    obtain ⟨hne, hchars⟩ := toString_wordChars n
    exact cut_word hne hchars
  | decimal literal hchars hvalue =>
    refine cut_word (fun hempty : literal.toList = [] => ?_) hchars
    rw [hempty, ofWord?_nil] at hvalue
    cases hvalue
  | string s => exact cut_quote s
  | array items _ ih =>
    have hitems := (cut_intercalate ih).mark cut_nil (c := ']') rfl rfl
    simpa [compact, tokens, compactItems_eq_map, itemTokens_eq_map] using
      hitems.cons (c := '[') rfl
  | object members _ ih =>
    have hmember (m : String × Json) (hm : m ∈ members)
        : Cut (quote m.1 ++ ":" ++ compact m.2).toList (.text m.1 :: .colon :: tokens m.2) := by
      simpa using (cut_quote m.1).mark (ih m hm) (c := ':') rfl rfl
    have hmembers := (cut_intercalate hmember).mark cut_nil (c := '\x7d') rfl rfl
    simpa [compact, tokens, compactMembers_eq_map, memberTokens_eq_map] using
      hmembers.cons (c := '\x7b') rfl

/-! Putting tokens together -/

def Expect.Begins (e : Expect) : Prop := e = .value ∨ e = .firstItem

theorem step_begins {e : Expect} (he : e.Begins) (ht : t ≠ .closeArray)
    : Builder.step ⟨frames, e⟩ t = Builder.start frames t := by
  rcases he with rfl | rfl
  . rfl
  . cases t <;> first | rfl | exact absurd rfl ht

theorem foldlM_word {e : Expect} (he : e.Begins) (hvalue : ofWord? text = some v)
    : [Token.word text].foldlM Builder.step ⟨frames, e⟩ = Builder.put frames v := by
  rw [List.foldlM_cons, step_begins he (by simp), Builder.start, hvalue]
  simp

theorem foldlM_intercalate {α : Type} {xs : List α} {g : α → List Token}
    (frame : List α → Frame) (Begins : Expect → Prop) {e next : Expect} (acc : List α)
    (he : Begins e) (hnext : Begins next) (hne : xs ≠ [])
    (hcomma : ∀ acc, Builder.step ⟨frame acc :: frames, .separator⟩ .comma =
      some ⟨frame acc :: frames, next⟩)
    (helement : ∀ x ∈ xs, ∀ acc e, Begins e →
      (g x).foldlM Builder.step ⟨frame acc :: frames, e⟩ =
        some ⟨frame (x :: acc) :: frames, .separator⟩)
    : ([Token.comma].intercalate (xs.map g)).foldlM Builder.step ⟨frame acc :: frames, e⟩ =
        some ⟨frame (xs.reverse ++ acc) :: frames, .separator⟩ := by
  induction xs generalizing acc e with
  | nil => exact absurd rfl hne
  | cons x xs ih =>
    have hx := helement x List.mem_cons_self acc e he
    cases xs with
    | nil => simpa using hx
    | cons y ys =>
      have hrest := ih (x :: acc) hnext (by simp) fun z hz =>
        helement z (List.mem_cons_of_mem _ hz)
      rw [List.map_cons, List.map_cons, List.intercalate_cons_cons, List.foldlM_append,
        List.foldlM_append, hx]
      simpa [hcomma] using hrest

theorem member_built {e : Expect} {acc : List (String × Json)} {m : String × Json}
    (he : e = .key ∨ e = .firstKey)
    (hvalue : ∀ {frames : List Frame} {e : Expect}, e.Begins →
      (tokens m.2).foldlM Builder.step ⟨frames, e⟩ = Builder.put frames m.2)
    : (Token.text m.1 :: .colon :: tokens m.2).foldlM Builder.step
          ⟨.object acc none :: frames, e⟩ =
        some ⟨.object (m :: acc) none :: frames, .separator⟩ := by
  have hname : Builder.step ⟨.object acc none :: frames, e⟩ (.text m.1) =
      some ⟨.object acc (some m.1) :: frames, .colon⟩ := by
    rcases he with rfl | rfl <;> rfl
  have hcolon : Builder.step ⟨.object acc (some m.1) :: frames, .colon⟩ .colon =
      some ⟨.object acc (some m.1) :: frames, .value⟩ := rfl
  simp [hname, hcolon, hvalue (.inl rfl), Builder.put]

theorem Proper.built (proper : Proper v) {e : Expect} (he : e.Begins)
    : v.tokens.foldlM Builder.step ⟨frames, e⟩ = Builder.put frames v := by
  induction proper generalizing frames e with
  | null => exact foldlM_word he rfl
  | bool b =>
    cases b with
    | true => exact foldlM_word he rfl
    | false => exact foldlM_word he rfl
  | integer n => exact foldlM_word he (ofWord?_toString n)
  | decimal literal _ hvalue => exact foldlM_word he hvalue
  | string s =>
    rw [tokens, List.foldlM_cons, step_begins he (by simp), Builder.start]
    simp
  | array items _ ih =>
    have hopen : Builder.step ⟨frames, e⟩ .openArray = some ⟨.array [] :: frames, .firstItem⟩ :=
      step_begins he (by simp)
    rw [tokens, itemTokens_eq_map, List.cons_append, List.foldlM_cons, hopen, Option.bind_eq_bind,
      Option.bind_some, List.foldlM_append]
    by_cases hempty : items = []
    . simp [hempty, Builder.step, Builder.close]
    . rw [foldlM_intercalate .array Expect.Begins [] (.inr rfl) (.inl rfl) hempty (fun _ => rfl)
        fun v hv acc e he => ih v hv he]
      simp [Builder.step, Builder.close]
  | object members _ ih =>
    have hopen : Builder.step ⟨frames, e⟩ .openObject =
        some ⟨.object [] none :: frames, .firstKey⟩ :=
      step_begins he (by simp)
    rw [tokens, memberTokens_eq_map, List.cons_append, List.foldlM_cons, hopen, Option.bind_eq_bind,
      Option.bind_some, List.foldlM_append]
    by_cases hempty : members = []
    . simp [hempty, Builder.step, Builder.close]
    . rw [foldlM_intercalate (.object · none) (fun e => e = .key ∨ e = .firstKey) [] (.inr rfl)
        (.inl rfl) hempty (fun _ => rfl) fun m hm acc e he => member_built he (ih m hm)]
      simp [Builder.step, Builder.close]

theorem parse?_compact (proper : Proper v) : parse? (compact v) = some v := by
  have hcut := proper.cut [] separated_nil
  have hbuilt : v.tokens.foldlM Builder.step ⟨[], .value⟩ = Builder.put [] v :=
    proper.built (.inl rfl)
  rw [List.append_nil] at hcut
  simp [parse?, tokens?, hcut, tokens?.go, ofTokens?, hbuilt, Builder.put]

end

end BringUp.Json
