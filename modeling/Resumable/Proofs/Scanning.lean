import Mathlib.Data.List.TakeWhile
import Mathlib.Tactic.SplitIfs
import Resumable.Json.Codec
import Resumable.Json.Printer
import Resumable.Json.Reader

namespace Resumable

namespace CodePoints

variable {codes : CodePoints}

theorem plain_ofString (s : String) : (ofString s).Plain := by
  intro code mem
  obtain ⟨c, -, same⟩ := List.mem_map.mp mem
  exact ⟨c, same⟩

theorem isSurrogate_toNat (c : Char) : isSurrogate c.toNat = false := by
  have valid : c.toNat < 0xD800 ∨ 0xDFFF < c.toNat ∧ c.toNat < 0x110000 := c.valid
  simp only [isSurrogate, Bool.and_eq_false_iff, decide_eq_false_iff_not]
  omega

@[simp]
theorem content?_ofString (s : String) : (ofString s).content? = some s := by
  have whole : (ofString s).any isSurrogate = false :=
    List.any_eq_false.mpr fun code mem => by
      obtain ⟨c, rfl⟩ := plain_ofString s code mem
      simp [isSurrogate_toNat]
  rw [content?, whole, if_neg Bool.false_ne_true]
  simp [ofString, List.map_map, Function.comp_def]

theorem ofString_injective : Function.Injective ofString := fun s t same =>
  Option.some.inj (by rw [← content?_ofString, same, content?_ofString])

theorem joinSurrogates_of_plain (plain : codes.Plain) : codes.joinSurrogates = codes := by
  fun_induction joinSurrogates codes with
  | case1 high low rest pair ih =>
    obtain ⟨c, rfl⟩ := plain high (List.mem_cons_self ..)
    have other := isSurrogate_toNat c
    simp only [isSurrogate, Bool.and_eq_false_iff, decide_eq_false_iff_not] at other
    simp only [isHighSurrogate, Bool.and_eq_true, decide_eq_true_eq] at pair
    omega
  | case2 high low rest other ih =>
    rw [ih fun code mem => plain code (List.mem_cons_of_mem _ mem)]
  | case3 => rfl

end CodePoints

namespace Json

namespace Token

def Delimits (c : Char) : Prop :=
  c.isAlpha = false ∧ inNumber c = false

theorem hexDigit?_digitChar : ∀ d < 0x10, hexDigit? (Nat.digitChar d) = some d := by
  decide

theorem inNumber_of_isDigit {c : Char} (digit : c.isDigit = true) : inNumber c = true := by
  simp [inNumber, digit]

theorem isDigit_or_mem_dropWhile {c : Char} {cs : List Char} (mem : c ∈ cs) :
    c.isDigit = true ∨ c ∈ cs.dropWhile Char.isDigit := by
  rw [← List.takeWhile_append_dropWhile (p := Char.isDigit) (l := cs)] at mem
  exact (List.mem_append.mp mem).imp_left List.mem_takeWhile_imp

theorem inNumber_of_isExponent {cs : List Char} (exponent : isExponent cs = true) {c : Char}
    (mem : c ∈ cs) : inNumber c = true := by
  cases cs with
  | nil => cases mem
  | cons e rest =>
    simp only [isExponent, Bool.and_eq_true, Bool.or_eq_true, decide_eq_true_eq,
      List.all_eq_true] at exponent
    obtain ⟨⟨letter, -⟩, digits⟩ := exponent
    obtain rfl | mem := List.mem_cons.mp mem
    · obtain rfl | rfl := letter <;> rfl
    · split at digits
      · obtain rfl | mem := List.mem_cons.mp mem
        · rfl
        · exact inNumber_of_isDigit (digits c mem)
      · obtain rfl | mem := List.mem_cons.mp mem
        · rfl
        · exact inNumber_of_isDigit (digits c mem)
      · exact inNumber_of_isDigit (digits c mem)

theorem inNumber_of_afterFraction {cs rest : List Char} (fraction : afterFraction? cs = some rest)
    {c : Char} (mem : c ∈ cs) : inNumber c = true ∨ c ∈ rest := by
  revert fraction
  fun_cases afterFraction? cs with
  | case1 d ds digit =>
    intro fraction
    cases fraction
    obtain rfl | rfl | mem : c = '.' ∨ c = d ∨ c ∈ ds := by simpa using mem
    · exact .inl rfl
    · exact .inl (inNumber_of_isDigit digit)
    · exact (isDigit_or_mem_dropWhile mem).imp_left inNumber_of_isDigit
  | case2 => rintro ⟨⟩
  | case3 => rintro ⟨⟩
  | case4 =>
    rintro ⟨⟩
    exact .inr mem

theorem inNumber_of_tail {cs : List Char}
    (tail : ((afterFraction? cs).map isExponent).getD false = true) {c : Char} (mem : c ∈ cs) :
    inNumber c = true := by
  cases fraction : afterFraction? cs with
  | none => simp [fraction] at tail
  | some rest =>
    rw [fraction] at tail
    obtain inside | mem := inNumber_of_afterFraction fraction mem
    · exact inside
    · exact inNumber_of_isExponent tail mem

def isUnsigned : List Char → Bool
  | '0' :: rest => ((afterFraction? rest).map isExponent).getD false
  | c :: rest =>
    c.isDigit && ((afterFraction? (rest.dropWhile Char.isDigit)).map isExponent).getD false
  | [] => false

theorem isNumber_of_ne {c : Char} {cs : List Char} (plus : c ≠ '-') :
    isNumber (c :: cs) = isUnsigned (c :: cs) := by
  unfold isNumber
  split
  · rename_i same
    exact absurd (List.head_eq_of_cons_eq same) plus
  · rfl

theorem inNumber_of_isUnsigned {cs : List Char} (unsigned : isUnsigned cs = true) {c : Char}
    (mem : c ∈ cs) : inNumber c = true := by
  revert unsigned
  fun_cases isUnsigned cs with
  | case1 rest =>
    intro tail
    obtain rfl | mem := List.mem_cons.mp mem
    · rfl
    · exact inNumber_of_tail tail mem
  | case2 d rest other =>
    intro unsigned
    obtain ⟨digit, tail⟩ := (Bool.and_eq_true _ _).mp unsigned
    obtain rfl | mem := List.mem_cons.mp mem
    · exact inNumber_of_isDigit digit
    · obtain digit | mem := isDigit_or_mem_dropWhile mem
      · exact inNumber_of_isDigit digit
      · exact inNumber_of_tail tail mem
  | case3 => cases mem

theorem isDigit_of_isUnsigned {c : Char} {cs : List Char} (unsigned : isUnsigned (c :: cs) = true) :
    c.isDigit = true := by
  unfold isUnsigned at unsigned
  split at unsigned
  · rename_i same
    rw [List.head_eq_of_cons_eq same]
    rfl
  · rename_i same
    rw [List.head_eq_of_cons_eq same]
    exact ((Bool.and_eq_true _ _).mp unsigned).1
  · rename_i same
    cases same

theorem inNumber_of_isNumber {cs : List Char} (number : isNumber cs = true) :
    ∀ c ∈ cs, inNumber c = true := by
  intro c mem
  cases cs with
  | nil => cases mem
  | cons d cs =>
    by_cases minus : d = '-'
    · subst minus
      obtain rfl | mem := List.mem_cons.mp mem
      · rfl
      · exact inNumber_of_isUnsigned number mem
    · rw [isNumber_of_ne minus] at number
      exact inNumber_of_isUnsigned number mem

theorem start_of_isNumber {c : Char} {cs : List Char} (number : isNumber (c :: cs) = true) :
    c = '-' ∨ c.isDigit = true := by
  by_cases minus : c = '-'
  · exact .inl minus
  · rw [isNumber_of_ne minus] at number
    exact .inr (isDigit_of_isUnsigned number)

namespace Scan

variable {done : List Token} {codes : CodePoints}

theorem scan_hexQuad {n : Nat} (short : n < 0x10000) :
    (CodePoints.hexQuad n).foldlM feed ⟨done, .code codes 4 0⟩ =
      some ⟨done, .text (codes ++ [n])⟩ := by
  have digit : ∀ q, hexDigit? (Nat.digitChar (q % 0x10)) = some (q % 0x10) :=
    fun q => hexDigit?_digitChar _ (Nat.mod_lt q (by decide))
  simp [CodePoints.hexQuad, feed, digit]
  omega

theorem scan_printCode (c : Char) :
    (CodePoints.printCode c.toNat).foldlM feed ⟨done, .text codes⟩ =
      some ⟨done, .text (codes ++ [c.toNat])⟩ := by
  have other : ∀ d : Char, c.toNat ≠ d.toNat → c ≠ d := fun d ne same => ne (same ▸ rfl)
  unfold CodePoints.printCode
  split_ifs with quote backslash backspace tab line page back control
  · rw [quote]; rfl
  · rw [backslash]; rfl
  · rw [backspace]; rfl
  · rw [tab]; rfl
  · rw [line]; rfl
  · rw [page]; rfl
  · rw [back]; rfl
  · have short : c.toNat < 0x10000 := by
      simp only [CodePoints.isSurrogate_toNat, Bool.or_false, decide_eq_true_eq] at control
      omega
    have escape : feed ⟨done, .text codes⟩ '\\' = some ⟨done, .escape codes⟩ := rfl
    have code : feed ⟨done, .escape codes⟩ 'u' = some ⟨done, .code codes 4 0⟩ := rfl
    simp only [List.foldlM_cons, escape, code, Option.bind_eq_bind, Option.bind_some]
    exact scan_hexQuad short
  · simp only [Bool.or_eq_true, decide_eq_true_eq, not_or, Nat.not_lt] at control
    have plain : feed ⟨done, .text codes⟩ c = some ⟨done, .text (codes ++ [c.toNat])⟩ := by
      simp only [feed]
      rw [if_neg (other '"' quote), if_neg (other '\\' backslash),
        if_neg (Nat.not_lt.mpr control.1)]
    simp [plain]

theorem scan_codes {more : CodePoints} (plain : more.Plain) :
    (more.flatMap CodePoints.printCode).foldlM feed ⟨done, .text codes⟩ =
      some ⟨done, .text (codes ++ more)⟩ := by
  induction more generalizing codes with
  | nil => simp
  | cons code more ih =>
    have later : (more.flatMap CodePoints.printCode).foldlM feed ⟨done, .text (codes ++ [code])⟩ =
        some ⟨done, .text (codes ++ [code] ++ more)⟩ :=
      ih fun c mem => plain c (List.mem_cons_of_mem _ mem)
    obtain ⟨c, rfl⟩ := plain code (List.mem_cons_self ..)
    rw [List.flatMap_cons, List.foldlM_append, scan_printCode]
    simpa using later

theorem scan_digits {digits more : List Char} (all : ∀ c ∈ more, inNumber c = true) :
    more.foldlM feed ⟨done, .number digits⟩ = some ⟨done, .number (digits ++ more)⟩ := by
  induction more generalizing digits with
  | nil => simp
  | cons c more ih =>
    have later : more.foldlM feed ⟨done, .number (digits ++ [c])⟩ =
        some ⟨done, .number (digits ++ [c] ++ more)⟩ :=
      ih fun d mem => all d (List.mem_cons_of_mem _ mem)
    have fed : feed ⟨done, .number digits⟩ c = some ⟨done, .number (digits ++ [c])⟩ := by
      simp only [feed]
      rw [if_pos (all c (List.mem_cons_self ..))]
    simp only [List.foldlM_cons, fed, Option.bind_eq_bind, Option.bind_some]
    simpa using later

theorem start_number {done : List Token} {c : Char} (number : c = '-' ∨ c.isDigit = true) :
    start ⟨done, .nothing⟩ c = some ⟨done, .number [c]⟩ := by
  obtain rfl | digit := number
  · rfl
  · have other : ∀ d : Char, d.isDigit = false → c ≠ d := by
      rintro d no rfl
      rw [digit] at no
      cases no
    simp [start, isBlank, digit, other]

/-- A character that delimits is read as if all tokens before it were complete. -/
theorem feed_of_settle {s : Scan} {c : Char} (settled : s.settle = some ⟨done, .nothing⟩)
    (delimits : Delimits c) : s.feed c = feed ⟨done, .nothing⟩ c := by
  obtain ⟨tokens, pending⟩ := s
  cases pending with
  | nothing =>
    cases settled
    rfl
  | word letters =>
    simp only [feed]
    rw [delimits.1, if_neg Bool.false_ne_true, settled]
    rfl
  | number digits =>
    simp only [feed]
    rw [delimits.2, if_neg Bool.false_ne_true, settled]
    rfl
  | text => cases settled
  | escape => cases settled
  | code => cases settled

end Scan

variable {cs ds : List Char} {ts us : List Token}

def Completes (cs : List Char) (ts : List Token) : Prop :=
  ∀ done, cs.foldlM Scan.feed ⟨done, .nothing⟩ = some ⟨ts.reverse ++ done, .nothing⟩

def Reads (cs : List Char) (ts : List Token) : Prop :=
  ∀ done, ∃ s, cs.foldlM Scan.feed ⟨done, .nothing⟩ = some s ∧
    s.settle = some ⟨ts.reverse ++ done, .nothing⟩

def Delimited (cs : List Char) : Prop :=
  ∃ c ds, cs = c :: ds ∧ Delimits c

theorem Completes.reads (completes : Completes cs ts) : Reads cs ts :=
  fun done => ⟨_, completes done, rfl⟩

theorem Completes.append (first : Completes cs ts) (second : Completes ds us) :
    Completes (cs ++ ds) (ts ++ us) := by
  intro done
  rw [List.foldlM_append, first done]
  simpa using second (ts.reverse ++ done)

theorem Reads.append (first : Reads cs ts) (second : Completes ds us) (delimited : Delimited ds) :
    Completes (cs ++ ds) (ts ++ us) := by
  intro done
  obtain ⟨s, scanned, settled⟩ := first done
  obtain ⟨c, ds, rfl, delimits⟩ := delimited
  have rest := second (ts.reverse ++ done)
  rw [List.foldlM_cons] at rest
  rw [List.foldlM_append, scanned]
  simp only [Option.bind_eq_bind, Option.bind_some, List.foldlM_cons]
  rw [Scan.feed_of_settle settled delimits]
  simpa using rest

theorem completes_nil : Completes [] [] :=
  fun _ => rfl

theorem completes_blanks (n : Nat) : Completes (List.replicate n ' ') [] := by
  induction n with
  | zero => exact completes_nil
  | succ n ih =>
    have blank : Completes [' '] [] := fun _ => rfl
    exact blank.append ih

theorem completes_newline (depth : Nat) : Completes (newline depth) [] := by
  have feed : Completes ['\n'] [] := fun _ => rfl
  exact feed.append (completes_blanks _)

theorem delimited_newline (depth : Nat) : Delimited (newline depth ++ cs) :=
  ⟨'\n', _, rfl, rfl, rfl⟩

theorem completes_text {codes : CodePoints} (plain : codes.Plain) :
    Completes codes.print [.text codes] := by
  intro done
  have opened : Scan.feed ⟨done, .nothing⟩ '"' = some ⟨done, .text []⟩ := rfl
  have closed : Scan.feed ⟨done, .text codes⟩ '"' = some ⟨.text codes :: done, .nothing⟩ := by
    simp only [Scan.feed]
    rw [if_true, CodePoints.joinSurrogates_of_plain plain]
  rw [CodePoints.print, List.foldlM_append, List.foldlM_cons, opened]
  simp [Scan.scan_codes plain, closed]

theorem reads_number {digits : List Char} (number : isNumber digits = true) :
    Reads digits [.number digits] := by
  intro done
  refine ⟨⟨done, .number digits⟩, ?_, ?_⟩
  · cases digits with
    | nil => cases number
    | cons c digits =>
      have all := inNumber_of_isNumber number
      have opened : Scan.feed ⟨done, .nothing⟩ c = some ⟨done, .number [c]⟩ :=
        Scan.start_number (start_of_isNumber number)
      rw [List.foldlM_cons, opened]
      exact Scan.scan_digits fun d mem => all d (List.mem_cons_of_mem _ mem)
  · simp [Scan.settle, ofNumber?, number]

end Token

end Json

end Resumable
