import BankedController.Json.Printer

namespace BankedController.Json

/-- Decimal digits, at least one. -/
def AreDigits (cs : List Char) : Prop := cs ≠ [] ∧ ∀ c ∈ cs, c.isDigit = true

/-- A numeral that the grammar of numbers allows. -/
structure Numeral.Grammatical (n : Numeral) : Prop where
  whole : AreDigits n.whole
  /-- A zero stands in front only where it stands alone. -/
  leading : ∀ rest, n.whole = '0' :: rest → rest = []
  fraction : ∀ c ∈ n.fraction, c.isDigit = true
  exponent : ∀ negative digits, n.exponent = some (negative, digits) → AreDigits digits

/-- A value that a text can hold: its numbers are grammatical, and its strings and keys are text. -/
inductive Value.Writable : Value → Prop
  | null : Writable .null
  | bool (b : Bool) : Writable (.bool b)
  | number {n : Numeral} (h : n.Grammatical) : Writable (.number n)
  | string (s : String) : Writable (.string (some s))
  | array {elements : List Value} (h : ∀ v ∈ elements, Writable v) : Writable (.array elements)
  | object {members : List Member} (hkeys : ∀ m ∈ members, ∃ key, m.1 = some key)
      (h : ∀ m ∈ members, Writable m.2) : Writable (.object members)

namespace Numeral

theorem areDigits_toDigits (n : Nat) : AreDigits (Nat.toDigits 10 n) :=
  ⟨Nat.toDigits_ne_nil, fun _ hc => Nat.isDigit_of_mem_toDigits (by decide) (by decide) hc⟩

/-- The digits of a number start with a zero only where the number is zero. -/
theorem leading_toDigits (n : Nat) :
    ∀ rest, Nat.toDigits 10 n = '0' :: rest → rest = [] := by
  induction n using Nat.strongRecOn with
  | ind n ih =>
    intro rest hdigits
    rw [Nat.toDigits_eq_if (by decide)] at hdigits
    split at hdigits
    · exact (List.cons.inj hdigits).2.symm
    next hten =>
      cases hfirst : Nat.toDigits 10 (n / 10) with
      | nil => exact absurd hfirst Nat.toDigits_ne_nil
      | cons c more =>
        rw [hfirst] at hdigits
        obtain ⟨rfl, -⟩ := List.cons.inj hdigits
        obtain rfl := ih (n / 10) (by omega) more hfirst
        have hvalue := Nat.ofDigitChars_toDigits (b := 10) (n := n / 10) (by decide) (by decide)
        rw [hfirst] at hvalue
        have hzero : n / 10 = 0 := hvalue.symm
        omega

theorem grammatical_ofNat (n : Nat) : (ofNat n).Grammatical :=
  ⟨areDigits_toDigits n, leading_toDigits n, fun _ hc => absurd hc List.not_mem_nil,
    fun _ _ h => nomatch h⟩

end Numeral

theorem Value.writable_nat (n : Nat) : (Value.nat n).Writable :=
  .number (Numeral.grammatical_ofNat n)

theorem Value.Writable.empty : (Value.object []).Writable :=
  .object (fun _ hm => nomatch hm) fun _ hm => nomatch hm

/-- A field in front of others. -/
theorem Value.Writable.field {key : String} {v : Value} {members : List Member} (hv : v.Writable)
    (h : (Value.object members).Writable) : (Value.object (field key v :: members)).Writable := by
  cases h with
  | object hkeys h =>
    exact .object (List.forall_mem_cons.2 ⟨⟨key, rfl⟩, hkeys⟩) (List.forall_mem_cons.2 ⟨hv, h⟩)

section Numbers

open Token

variable {cs rest : List Char}

/-- Nothing that goes on with digits. -/
def Undigited (rest : List Char) : Prop := ∀ c ∈ rest.head?, c.isDigit = false

theorem digits_append (hcs : ∀ c ∈ cs, c.isDigit = true) (hrest : Undigited rest) :
    digits (cs ++ rest) = (cs, rest) := by
  have htake : rest.takeWhile Char.isDigit = [] := by
    cases rest with
    | nil => rfl
    | cons c more => exact List.takeWhile_cons_of_neg (by simp [hrest c rfl])
  have hdrop : rest.dropWhile Char.isDigit = rest := by
    cases rest with
    | nil => rfl
    | cons c more => exact List.dropWhile_cons_of_neg (by simp [hrest c rfl])
  rw [digits, List.takeWhile_append_of_pos hcs, List.dropWhile_append_of_pos hcs, htake, hdrop,
    List.append_nil]

theorem wholePart_append (hcs : AreDigits cs) (hleading : ∀ more, cs = '0' :: more → more = [])
    (hrest : Undigited rest) : wholePart (cs ++ rest) = some (cs, rest) := by
  obtain ⟨hne, hdigits⟩ := hcs
  cases cs with
  | nil => exact absurd rfl hne
  | cons c more =>
    by_cases hzero : c = '0'
    · subst hzero
      obtain rfl := hleading more rfl
      rfl
    · have hsplit := digits_append hdigits hrest
      rw [List.cons_append] at hsplit ⊢
      unfold wholePart
      split
      next h => exact absurd (List.cons.inj h).1 hzero
      next => rw [hsplit]

/-- The digits after the point, with the point if there are any. -/
def fractionText (fraction rest : List Char) : List Char :=
  if fraction = [] then rest else '.' :: fraction ++ rest

/-- The exponent, with its mark if there is one. -/
def exponentText : Option (Bool × List Char) → List Char → List Char
  | none, rest => rest
  | some (negative, digits), rest => 'e' :: (if negative then ['-'] else []) ++ digits ++ rest

theorem writeNumeral_eq (n : Numeral) (rest : List Char) :
    writeNumeral n rest = (if n.negative then ['-'] else []) ++
      (n.whole ++ fractionText n.fraction (exponentText n.exponent rest)) := by
  obtain ⟨negative, whole, fraction, _ | ⟨negative', digits⟩⟩ := n
  all_goals exact List.append_assoc _ _ _

theorem fractionPart_fractionText (hcs : ∀ c ∈ cs, c.isDigit = true) (hrest : Undigited rest)
    (hpoint : ∀ c ∈ rest.head?, c ≠ '.') :
    fractionPart (fractionText cs rest) = some (cs, rest) := by
  unfold fractionText
  by_cases hempty : cs = []
  · subst hempty
    rw [if_pos rfl]
    unfold fractionPart
    split
    next more => exact absurd rfl (hpoint '.' rfl)
    next => rfl
  · rw [if_neg hempty, List.cons_append, fractionPart, digits_append hcs hrest]
    cases cs with
    | nil => exact absurd rfl hempty
    | cons c more => rfl

theorem exponentDigits_append (negative : Bool) (hcs : AreDigits cs) (hrest : Undigited rest) :
    exponentDigits negative (cs ++ rest) = some (some (negative, cs), rest) := by
  rw [exponentDigits, digits_append hcs.2 hrest]
  cases cs with
  | nil => exact absurd rfl hcs.1
  | cons c more => rfl

/-- Nothing that goes on with a value: a comma, a closing bracket or brace, or nothing at all. -/
def Ends (rest : List Char) : Prop := ∀ c ∈ rest.head?, c = ',' ∨ c = ']' ∨ c = '\x7d'

theorem Ends.undigited (h : Ends rest) : Undigited rest := by
  intro c hc
  rcases h c hc with rfl | rfl | rfl <;> rfl

theorem exponentPart_exponentText {exponent : Option (Bool × List Char)}
    (h : ∀ negative digits, exponent = some (negative, digits) → AreDigits digits)
    (hrest : Ends rest) : exponentPart (exponentText exponent rest) = some (exponent, rest) := by
  cases exponent with
  | none =>
    cases rest with
    | nil => rfl
    | cons c more => rcases hrest c rfl with rfl | rfl | rfl <;> rfl
  | some e =>
    obtain ⟨negative, digits⟩ := e
    have hdigits := h negative digits rfl
    rw [← exponentDigits_append negative hdigits hrest.undigited]
    cases negative with
    | true => rfl
    | false =>
      cases digits with
      | nil => exact absurd rfl hdigits.1
      | cons c more =>
        have hc : c.isDigit = true := hdigits.2 c List.mem_cons_self
        have hminus : c ≠ '-' := by
          rintro rfl
          cases hc
        have hplus : c ≠ '+' := by
          rintro rfl
          cases hc
        simp [exponentText, exponentPart, hminus, hplus]

/-- Behind the digits after the point stands the mark of an exponent or what ends the value. -/
theorem head_exponentText (exponent : Option (Bool × List Char)) (hrest : Ends rest) :
    ∀ c ∈ (exponentText exponent rest).head?, c.isDigit = false ∧ c ≠ '.' := by
  intro c hc
  cases exponent with
  | none => rcases hrest c hc with rfl | rfl | rfl <;> decide
  | some e =>
    obtain rfl : 'e' = c := by simpa [exponentText] using hc
    decide

theorem undigited_fractionText (fraction : List Char) (hrest : Undigited rest) :
    Undigited (fractionText fraction rest) := by
  intro c hc
  unfold fractionText at hc
  split at hc
  · exact hrest c hc
  · obtain rfl : '.' = c := by simpa using hc
    decide

/-- A number is read up to what ends it. -/
theorem unsignedNumber_append {n : Numeral} (h : n.Grammatical) (hrest : Ends rest) :
    unsignedNumber n.negative
        (n.whole ++ fractionText n.fraction (exponentText n.exponent rest)) =
      some (.number n, rest) := by
  have hhead := head_exponentText n.exponent hrest
  have hundigited : Undigited (exponentText n.exponent rest) := fun c hc => (hhead c hc).1
  have hpoint : ∀ c ∈ (exponentText n.exponent rest).head?, c ≠ '.' := fun c hc => (hhead c hc).2
  simp only [unsignedNumber, wholePart_append h.whole h.leading (undigited_fractionText _ hundigited),
    fractionPart_fractionText h.fraction hundigited hpoint,
    exponentPart_exponentText h.exponent hrest, Option.bind_eq_bind, Option.bind_some,
    Option.pure_def]

theorem next?_of_digit {c : Char} (hc : c.isDigit = true) (more : List Char) :
    next? (c :: more) = unsignedNumber false (c :: more) := by
  unfold next?
  split
  all_goals first
    | rfl
    | rename_i hfirst
      obtain ⟨rfl, -⟩ := List.cons.inj hfirst
      cases hc

theorem next?_writeNumeral {n : Numeral} (h : n.Grammatical) (hrest : Ends rest) :
    next? (writeNumeral n rest) = some (.number n, rest) := by
  have hnumber := unsignedNumber_append h hrest
  rw [writeNumeral_eq]
  cases hnegative : n.negative with
  | true =>
    rw [hnegative] at hnumber
    exact hnumber
  | false =>
    rw [hnegative] at hnumber
    obtain ⟨hne, hdigits⟩ := h.whole
    cases hwhole : n.whole with
    | nil => exact absurd hwhole hne
    | cons c more =>
      rw [hwhole] at hnumber hdigits
      exact (next?_of_digit (hdigits c List.mem_cons_self) _).trans hnumber

theorem length_writeNumeral {n : Numeral} (h : n.Grammatical) (rest : List Char) :
    rest.length < (writeNumeral n rest).length := by
  have hexponent : rest.length ≤ (exponentText n.exponent rest).length := by
    unfold exponentText
    split
    · exact Nat.le_refl _
    · simp only [List.length_append]
      omega
  have hfraction (tail : List Char) : tail.length ≤ (fractionText n.fraction tail).length := by
    unfold fractionText
    split
    · exact Nat.le_refl _
    · simp only [List.length_append]
      omega
  have hwhole := List.length_pos_iff.2 h.whole.1
  have htail := hfraction (exponentText n.exponent rest)
  rw [writeNumeral_eq]
  simp only [List.length_append]
  omega

/-- A number starts with a sign or a digit. -/
theorem visible_writeNumeral {n : Numeral} (h : n.Grammatical) (rest : List Char) :
    ∀ c ∈ (writeNumeral n rest).head?, isBlank c = false := by
  have hdigit {c : Char} (hc : c.isDigit = true) : isBlank c = false := by
    rw [Bool.eq_false_iff]
    intro hblank
    simp only [isBlank, Bool.or_eq_true, decide_eq_true_eq] at hblank
    rcases hblank with ((rfl | rfl) | rfl) | rfl <;> cases hc
  rw [writeNumeral_eq]
  intro c hc
  cases hnegative : n.negative with
  | true =>
    rw [hnegative] at hc
    obtain rfl : '-' = c := by simpa using hc
    decide
  | false =>
    obtain ⟨hne, hdigits⟩ := h.whole
    cases hwhole : n.whole with
    | nil => exact absurd hwhole hne
    | cons d more =>
      rw [hnegative, hwhole] at hc
      obtain rfl : d = c := by simpa using hc
      rw [hwhole] at hdigits
      exact hdigit (hdigits d List.mem_cons_self)

end Numbers

section Strings

open Token

/-- A control character is written with two zeros and two digits. -/
theorem toList_hexDigits : ∀ n < 0x20,
    (Text.hexDigits 4 n).toList = ['0', '0', (n / 16).digitChar, (n % 16).digitChar] := by
  simp only [Text.hexDigits, String.toList_ofList]
  decide

theorem hex4?_digitChar : ∀ n < 0x20,
    hex4? '0' '0' (n / 16).digitChar (n % 16).digitChar = some n := by
  decide

theorem literal_unicode {n : Nat} (hn : n < 0x20) (cs rest : List Char) :
    literal (some cs) none (['\\', 'u'] ++ (Text.hexDigits 4 n).toList ++ rest) =
      literal (some (Char.ofNat n :: cs)) none rest := by
  have hhigh : isHighSurrogate n = false := by simp only [isHighSurrogate]; grind
  have hlow : isLowSurrogate n = false := by simp only [isLowSurrogate]; grind
  rw [toList_hexDigits n hn]
  simp only [List.cons_append, List.nil_append, literal, hex4?_digitChar n hn, hhigh, hlow]
  rfl

/-- A character of a literal is read back, however it is escaped. -/
theorem literal_escapeChar (cs : List Char) (c : Char) (rest : List Char) :
    literal (some cs) none (escapeChar c ++ rest) = literal (some (c :: cs)) none rest := by
  unfold escapeChar
  split
  all_goals try rfl
  next hquote hbackslash _ _ _ _ _ =>
    split
    next hcontrol => rw [literal_unicode hcontrol, Char.ofNat_toNat]
    next hplain =>
      have hsingle : c ≠ '\\' := hbackslash
      simp [literal, hsingle, hplain]

/-- The characters of a literal are read up to the closing quote. -/
theorem literal_write (cs text rest : List Char) :
    literal (some cs) none (text.flatMap escapeChar ++ '"' :: rest) =
      some (some (String.ofList (cs.reverse ++ text)), rest) := by
  induction text generalizing cs with
  | nil =>
    rw [List.append_nil]
    rfl
  | cons c more ih =>
    rw [List.flatMap_cons, List.append_assoc, literal_escapeChar, ih, List.reverse_cons,
      List.append_assoc]
    rfl

theorem next?_writeLiteral (s : String) (rest : List Char) :
    next? (writeLiteral (some s) rest) = some (.string (some s), rest) := by
  have hread := literal_write [] s.toList rest
  rw [List.reverse_nil, List.nil_append, String.ofList_toList] at hread
  change (literal (some []) none (s.toList.flatMap escapeChar ++ '"' :: rest)).map _ = _
  rw [hread]
  rfl

theorem length_writeLiteral (s : Literal) (rest : List Char) :
    rest.length < (writeLiteral s rest).length := by
  simp only [writeLiteral, List.length_cons, List.length_append]
  omega

end Strings

namespace Value

/-- What the reader makes of a text from a state on, one token at a time. -/
inductive Reads : Expectation → List Char → Value → Prop
  | done (v : Value) : Reads (.complete v []) [] v
  | token {state next : Expectation} {cs rest : List Char} {token : Token} {v : Value}
      (hblank : ∀ c ∈ cs.head?, Token.isBlank c = false)
      (hnext : Token.next? cs = some (token, rest)) (hshort : rest.length < cs.length)
      (hadvance : advance state token = some next) (h : Reads next rest v) : Reads state cs v

variable {cs rest : List Char} {stack : List Frame} {result : Value}

theorem Reads.scanned {state : Expectation} (h : Reads state cs result) :
    ∀ n acc, cs.length < n →
      ∃ tokens, Token.scanOnto n acc cs = some (acc.reverse ++ tokens) ∧
        readFrom state tokens = some result := by
  induction h with
  | done v =>
    intro n acc hn
    cases n with
    | zero => cases hn
    | succ n => exact ⟨[], by rw [List.append_nil]; rfl, rfl⟩
  | @token state next cs rest token v hblank hnext hshort hadvance _ ih =>
    intro n acc hn
    cases n with
    | zero => cases hn
    | succ n =>
      cases cs with
      | nil => cases hshort
      | cons c more =>
        obtain ⟨tokens, hscan, hread⟩ := ih n (token :: acc) (by simp at hn hshort; omega)
        refine ⟨token :: tokens, ?_, ?_⟩
        · rw [Token.scanOnto, hblank c rfl, hnext]
          rw [List.reverse_cons, List.append_assoc] at hscan
          exact hscan
        · rw [readFrom, hadvance]
          exact hread

theorem parse?_of_reads {s : String} (h : Reads (.value []) s.toList result) :
    parse? s = some result := by
  obtain ⟨tokens, hscan, hread⟩ := h.scanned (s.toList.length + 1) [] (Nat.lt_succ_self _)
  rw [List.reverse_nil, List.nil_append] at hscan
  unfold parse? Token.scan
  rw [hscan]
  exact hread

/-- What stands where the reader has to see a value: the value, and then what is expected behind
it. -/
def ReadsBack (v : Value) : Prop := ∀ stack rest result, Ends rest →
  Reads (.complete v stack) rest result → Reads (.value stack) (v.write rest) result

theorem Reads.word {state next : Expectation} {c : Char} {more : List Char} {token : Token}
    (hnext : Token.next? (c :: more) = some (token, rest)) (hshort : rest.length < (c :: more).length)
    (hblank : Token.isBlank c = false) (hadvance : advance state token = some next)
    (h : Reads next rest result) : Reads state (c :: more) result := by
  refine .token ?_ hnext hshort hadvance h
  rintro d ⟨⟩
  exact hblank

/-- A character that is a token by itself. -/
theorem Reads.char {state next : Expectation} {c : Char} {token : Token}
    (hnext : Token.next? (c :: rest) = some (token, rest)) (hblank : Token.isBlank c = false)
    (hadvance : advance state token = some next) (h : Reads next rest result) :
    Reads state (c :: rest) result :=
  .word hnext (Nat.lt_succ_self _) hblank hadvance h

theorem Reads.literal {state next : Expectation} {key : Literal} (hkey : ∃ s, key = some s)
    (hadvance : advance state (.string key) = some next) (h : Reads next rest result) :
    Reads state (writeLiteral key rest) result := by
  obtain ⟨s, rfl⟩ := hkey
  exact .word (next?_writeLiteral s rest) (length_writeLiteral _ _) rfl hadvance h

/-- No value starts as the end of an array does. -/
theorem Reads.firstElement (h : Reads (.value (.array [] :: stack)) cs result) :
    Reads (.firstElement stack) cs result := by
  cases h with
  | @token _ _ _ _ token _ hblank hnext hshort hadvance h =>
    refine .token hblank hnext hshort ?_ h
    cases token with
    | closeBracket => cases hadvance
    | _ => exact hadvance

theorem ends_writeElements (vs : List Value) (rest : List Char) :
    Ends (writeElements vs (']' :: rest)) := by
  intro c hc
  cases vs with
  | nil =>
    obtain rfl : ']' = c := by simpa [writeElements] using hc
    exact .inr (.inl rfl)
  | cons v vs =>
    obtain rfl : ',' = c := by simpa [writeElements] using hc
    exact .inl rfl

theorem ends_writeMembers (ms : List Member) (rest : List Char) :
    Ends (writeMembers ms ('\x7d' :: rest)) := by
  intro c hc
  cases ms with
  | nil =>
    obtain rfl : '\x7d' = c := by simpa [writeMembers] using hc
    exact .inr (.inr rfl)
  | cons m ms =>
    obtain rfl : ',' = c := by simpa [writeMembers] using hc
    exact .inl rfl

/-- The elements behind one that was read are read up to the closing bracket. -/
theorem reads_writeElements {vs : List Value} (hvs : ∀ v ∈ vs, ReadsBack v) (v : Value)
    (done : List Value)
    (h : Reads (.complete (.array ((v :: done).reverse ++ vs)) stack) rest result) :
    Reads (.complete v (.array done :: stack)) (writeElements vs (']' :: rest)) result := by
  induction vs generalizing v done with
  | nil =>
    rw [List.append_nil] at h
    exact .char rfl rfl rfl h
  | cons w vs ih =>
    have hmore := ih (fun u hu => hvs u (List.mem_cons_of_mem _ hu)) w (v :: done)
      (by rwa [List.reverse_cons, List.append_assoc])
    exact .char rfl rfl rfl
      (hvs w List.mem_cons_self _ _ _ (ends_writeElements vs rest) hmore)

theorem reads_writeMembers {ms : List Member} (hkeys : ∀ m ∈ ms, ∃ key, m.1 = some key)
    (hms : ∀ m ∈ ms, ReadsBack m.2) (key : Literal) (v : Value) (done : List Member)
    (h : Reads (.complete (.object (((key, v) :: done).reverse ++ ms)) stack) rest result) :
    Reads (.complete v (.object done key :: stack)) (writeMembers ms ('\x7d' :: rest)) result := by
  induction ms generalizing key v done with
  | nil =>
    rw [List.append_nil] at h
    exact .char rfl rfl rfl h
  | cons m ms ih =>
    obtain ⟨name, w⟩ := m
    have hmore := ih (fun n hn => hkeys n (List.mem_cons_of_mem _ hn))
      (fun n hn => hms n (List.mem_cons_of_mem _ hn)) name w ((key, v) :: done)
      (by rwa [List.reverse_cons, List.append_assoc])
    have hvalue := hms (name, w) List.mem_cons_self _ _ _ (ends_writeMembers ms rest) hmore
    exact .char rfl rfl rfl (.literal (hkeys (name, w) List.mem_cons_self) rfl
      (.char rfl rfl rfl hvalue))

/-- By induction on the value: what was written is read back. -/
theorem readsBack {v : Value} (h : v.Writable) : ReadsBack v := by
  induction h with
  | null =>
    intro stack rest result _ hread
    exact .word rfl (by simp only [List.length_cons]; omega) rfl rfl hread
  | bool b =>
    intro stack rest result _ hread
    cases b with
    | true => exact .word rfl (by simp only [List.length_cons]; omega) rfl rfl hread
    | false => exact .word rfl (by simp only [List.length_cons]; omega) rfl rfl hread
  | number h =>
    intro stack rest result hrest hread
    exact .token (visible_writeNumeral h rest) (next?_writeNumeral h hrest)
      (length_writeNumeral h rest) rfl hread
  | string s =>
    intro stack rest result _ hread
    exact .literal ⟨s, rfl⟩ rfl hread
  | @array elements _ ih =>
    intro stack rest result _ hread
    cases elements with
    | nil => exact .char rfl rfl rfl (.char rfl rfl rfl hread)
    | cons v vs =>
      have hmore := reads_writeElements (fun u hu => ih u (List.mem_cons_of_mem _ hu)) v [] hread
      exact .char rfl rfl rfl
        (ih v List.mem_cons_self _ _ _ (ends_writeElements vs rest) hmore).firstElement
  | @object members hkeys _ ih =>
    intro stack rest result _ hread
    cases members with
    | nil => exact .char rfl rfl rfl (.char rfl rfl rfl hread)
    | cons m ms =>
      obtain ⟨key, v⟩ := m
      have hmore := reads_writeMembers (fun n hn => hkeys n (List.mem_cons_of_mem _ hn))
        (fun n hn => ih n (List.mem_cons_of_mem _ hn)) key v [] hread
      have hvalue := ih (key, v) List.mem_cons_self _ _ _ (ends_writeMembers ms rest) hmore
      exact .char rfl rfl rfl (.literal (hkeys (key, v) List.mem_cons_self) rfl
        (.char rfl rfl rfl hvalue))

/-- A value that was written in its compact form is read back. -/
theorem parse?_render {v : Value} (h : v.Writable) : parse? v.render = some v := by
  apply parse?_of_reads
  rw [render, String.toList_ofList]
  exact readsBack h [] [] v (fun _ hc => nomatch hc) (.done v)

end Value

end BankedController.Json
