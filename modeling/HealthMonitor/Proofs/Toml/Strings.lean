import HealthMonitor.Toml.Reader
import HealthMonitor.Toml.Writer
import Mathlib.Data.List.Basic

/-!
# Strings of a document

A string is written in the first of several forms that fits it, and read back in whichever form it
stands (`string?_string`); so is a key (`simpleKey?_key`). Between quotes a character stands as it
is or behind a backslash (`Spells`). On many lines there may also be line feeds and, as long as they
are no more than two in a row, quotes (`Block`); the last of them run into the quotes that close the
string, and the reader has to tell them apart.
-/

namespace HealthMonitor.Toml

/-- A run of characters ends where the first other one stands. -/
theorem takeWhile_append_of_stop {p : Char → Bool} {run rest : List Char}
    (hrun : ∀ c ∈ run, p c = true) (hrest : ∀ c ∈ rest.head?, p c = false) :
    (run ++ rest).takeWhile p = run := by
  have hnil : rest.takeWhile p = [] := by
    cases rest with
    | nil => rfl
    | cons c rest => exact List.takeWhile_cons_of_neg (by simp [hrest c rfl])
  rw [List.takeWhile_append_of_pos hrun, hnil, List.append_nil]

/-- What starts with a run of characters starts with one of them. -/
theorem first_of_run {p : Char → Bool} {run rest text : List Char} {c : Char} (hne : run ≠ [])
    (hrun : ∀ c ∈ run, p c = true) (h : run ++ rest = c :: text) : p c = true := by
  cases run with
  | nil => exact absurd rfl hne
  | cons d run => exact (List.cons.inj h).1 ▸ hrun d List.mem_cons_self

/-! ### Spellings of characters -/

/-- What stands behind a backslash is an escape of a character, and no end of a line. -/
structure IsEscape (body : List Char) (c : Char) : Prop where
  reads : ∀ rest, escape? (body ++ rest) = some (c, rest)
  stays : ∀ rest, continued? (body ++ rest) = none

/-- How one character of a string can be written on its line. -/
inductive Spells (quote : Char) (escapes : Bool) : List Char → Char → Prop
  | plain {c : Char} (printable : isPrintable c = true) (unquoted : c ≠ quote)
      (unescaped : escapes = true → c ≠ '\\') : Spells quote escapes [c] c
  | escape {body : List Char} {c : Char} (allowed : escapes = true) (escape : IsEscape body c) :
      Spells quote escapes ('\\' :: body) c

section Spelling

variable {quote : Char} {escapes : Bool} {p : List Char} {c : Char}

theorem Spells.ne_nil (h : Spells quote escapes p c) : p ≠ [] := by
  cases h <;> exact List.cons_ne_nil _ _

/-- No spelling starts with the quote around the string: the character itself is not spelled so, and
an escape starts with a backslash. -/
theorem Spells.head?_ne (hquote : quote ≠ '\\') (h : Spells quote escapes p c)
    (text : List Char) : (p ++ text).head? ≠ some quote := by
  cases h with
  | plain _ unquoted => simpa using unquoted
  | escape => simpa using hquote.symm

/-- On one line a spelling is taken off for its character. -/
theorem Spells.lineString? (hquote : quote ≠ '\\') (h : Spells quote escapes p c) (fuel : Nat)
    (rest : List Char) :
    lineString? quote escapes (fuel + 1) (p ++ rest) =
      (lineString? quote escapes fuel rest).map fun r => (c :: r.1, r.2) := by
  cases h with
  | plain printable unquoted unescaped =>
    have hescape : (escapes && c == '\\') = false := by
      cases escapes with
      | false => rfl
      | true => simpa using unescaped rfl
    rw [List.singleton_append, Toml.lineString?, if_neg unquoted, hescape, if_neg (by decide),
      if_pos printable]
  | @escape body _ allowed escape =>
    rw [List.cons_append, Toml.lineString?, if_neg hquote.symm, if_pos (by simp [allowed]),
      escape.reads]
    simp only [Option.bind_eq_bind, Option.bind_some]
    cases Toml.lineString? quote escapes fuel rest <;> rfl

/-- A line ends with a line feed, or with a return in front of one. -/
theorem newline?_of_ne {c : Char} (h : c ≠ '\n') (hreturn : c ≠ '\r') (rest : List Char) :
    newline? (c :: rest) = none := by
  unfold newline?
  split
  next heq => exact absurd (List.cons.inj heq).1 h
  next heq => exact absurd (List.cons.inj heq).1 hreturn
  next => rfl

theorem ne_of_isPrintable (h : isPrintable c = true) : c ≠ '\n' ∧ c ≠ '\r' := by
  constructor <;> rintro rfl <;> exact absurd h (by decide)

/-- On many lines a spelling is taken off for its character, too. -/
theorem Spells.blockString? (hquote : quote ≠ '\\') (h : Spells quote escapes p c) (fuel : Nat)
    (rest : List Char) :
    blockString? quote escapes (fuel + 1) (p ++ rest) =
      (blockString? quote escapes fuel rest).map fun r => (c :: r.1, r.2) := by
  cases h with
  | plain printable unquoted unescaped =>
    have hescape : (escapes && c == '\\') = false := by
      cases escapes with
      | false => rfl
      | true => simpa using unescaped rfl
    obtain ⟨hfeed, hreturn⟩ := ne_of_isPrintable printable
    rw [List.singleton_append, Toml.blockString?, if_neg unquoted, hescape, if_neg (by decide),
      newline?_of_ne hfeed hreturn, if_pos printable]
  | @escape body _ allowed escape =>
    rw [List.cons_append, Toml.blockString?, if_neg hquote.symm, if_pos (by simp [allowed]),
      escape.stays, escape.reads]
    simp only [Option.bind_eq_bind, Option.bind_some]
    cases Toml.blockString? quote escapes fuel rest <;> rfl

end Spelling

/-! ### Strings on one line -/

/-- **A row of spellings is read up to the closing quote.** -/
theorem lineString?_flatMap {quote : Char} {escapes : Bool} (hquote : quote ≠ '\\')
    {spelling : Char → List Char} {cs : List Char}
    (h : ∀ c ∈ cs, Spells quote escapes (spelling c) c) {fuel : Nat} (hfuel : cs.length < fuel)
    (rest : List Char) :
    lineString? quote escapes fuel (cs.flatMap spelling ++ quote :: rest) = some (cs, rest) := by
  induction cs generalizing fuel with
  | nil =>
    obtain ⟨fuel, rfl⟩ := Nat.exists_eq_add_of_lt hfuel
    simp [lineString?]
  | cons c cs ih =>
    obtain ⟨hc, hcs⟩ := List.forall_mem_cons.mp h
    obtain ⟨fuel, rfl⟩ : ∃ n, fuel = n + 1 := ⟨fuel - 1, by omega⟩
    have hlength : cs.length < fuel := by simpa using hfuel
    rw [List.flatMap_cons, List.append_assoc, hc.lineString? hquote, ih hcs hlength]
    rfl

/-- A spelling is no shorter than what it spells. -/
theorem length_le_flatMap {quote : Char} {escapes : Bool} {spelling : Char → List Char}
    {cs : List Char} (h : ∀ c ∈ cs, Spells quote escapes (spelling c) c) :
    cs.length ≤ (cs.flatMap spelling).length := by
  induction cs with
  | nil => exact Nat.le_refl 0
  | cons c cs ih =>
    obtain ⟨hc, hcs⟩ := List.forall_mem_cons.mp h
    have hpos := List.length_pos_iff.mpr hc.ne_nil
    have hrest := ih hcs
    rw [List.flatMap_cons, List.length_append, List.length_cons]
    omega

/-! ### Strings on many lines -/

/-- How the content of a string can be written on many lines. -/
inductive Block (quote : Char) (escapes : Bool) : List Char → List Char → Prop
  | nil : Block quote escapes [] []
  | char {p : List Char} {c : Char} {text cs : List Char} (spells : Spells quote escapes p c)
      (more : Block quote escapes text cs) : Block quote escapes (p ++ text) (c :: cs)
  | line {text cs : List Char} (more : Block quote escapes text cs) :
      Block quote escapes ('\n' :: text) ('\n' :: cs)
  | quotes {text cs : List Char} {count : Nat} (few : count ≤ 2)
      (last : text.head? ≠ some quote) (more : Block quote escapes text cs) :
      Block quote escapes (List.replicate count quote ++ text) (List.replicate count quote ++ cs)

/-- Three quotes, which open and close a string on many lines. -/
def fence (quote : Char) : List Char :=
  List.replicate 3 quote

section Blocks

variable {quote : Char} {escapes : Bool}

/-- Quotes are counted up to the first other character. -/
theorem takeWhile_quotes (count : Nat) {rest : List Char} (h : rest.head? ≠ some quote) :
    (List.replicate count quote ++ rest).takeWhile (· == quote) = List.replicate count quote := by
  refine takeWhile_append_of_stop (fun c hc => by simp [List.eq_of_mem_replicate hc]) ?_
  rintro c hc
  have hne : c ≠ quote := fun heq => h (heq ▸ hc)
  simpa using hne

/-- Up to two quotes are part of the string. -/
theorem blockString?_quotes {count : Nat} (few : count < 2) {rest : List Char}
    (h : rest.head? ≠ some quote) (fuel : Nat) :
    blockString? quote escapes (fuel + 1) (List.replicate (count + 1) quote ++ rest) =
      (blockString? quote escapes fuel rest).map fun r =>
        (List.replicate (count + 1) quote ++ r.1, r.2) := by
  rw [List.replicate_succ, List.cons_append, blockString?, if_pos rfl, takeWhile_quotes count h]
  simp [few]

/-- The last three of up to five quotes close the string. -/
theorem blockString?_fence {count : Nat} (few : count ≤ 2) {rest : List Char}
    (h : rest.head? ≠ some quote) (fuel : Nat) :
    blockString? quote escapes (fuel + 1) (List.replicate count quote ++ (fence quote ++ rest)) =
      some (List.replicate count quote, rest) := by
  have hjoin : List.replicate count quote ++ (fence quote ++ rest) =
      quote :: (List.replicate (count + 2) quote ++ rest) := by
    rw [fence, ← List.append_assoc, List.replicate_append_replicate, List.replicate_succ,
      List.cons_append]
  have hmany : ¬ (List.replicate (count + 2) quote).length < 2 := by simp
  have henough : (List.replicate (count + 2) quote).length ≤ 4 := by simpa using few
  rw [hjoin, blockString?, if_pos rfl, takeWhile_quotes (count + 2) h]
  simp only [hmany, henough, if_false, if_true, List.drop_replicate, List.drop_left]
  rfl

/-- **The content of a block is read up to the closing quotes.** -/
theorem Block.blockString? (hquote : quote ≠ '\\') (hline : quote ≠ '\n') {text cs : List Char}
    (h : Block quote escapes text cs) {rest : List Char} (hrest : rest.head? ≠ some quote)
    {fuel : Nat} (hfuel : text.length < fuel) :
    blockString? quote escapes fuel (text ++ (fence quote ++ rest)) = some (cs, rest) := by
  induction h generalizing fuel with
  | nil =>
    obtain ⟨fuel, rfl⟩ : ∃ n, fuel = n + 1 := ⟨fuel - 1, by omega⟩
    exact blockString?_fence (Nat.zero_le 2) hrest fuel
  | char spells more ih =>
    have hpos := List.length_pos_iff.mpr spells.ne_nil
    rw [List.length_append] at hfuel
    obtain ⟨fuel, rfl⟩ : ∃ n, fuel = n + 1 := ⟨fuel - 1, by omega⟩
    rw [List.append_assoc, spells.blockString? hquote, ih (by omega)]
    rfl
  | line more ih =>
    rw [List.length_cons] at hfuel
    obtain ⟨fuel, rfl⟩ : ∃ n, fuel = n + 1 := ⟨fuel - 1, by omega⟩
    rw [List.cons_append, Toml.blockString?, if_neg hline.symm, if_neg (by simp)]
    simp only [newline?, ih (by omega : _ < fuel), Option.map_some]
  | @quotes text cs count few last more ih =>
    rw [List.length_append, List.length_replicate] at hfuel
    obtain ⟨fuel, rfl⟩ : ∃ n, fuel = n + 1 := ⟨fuel - 1, by omega⟩
    cases count with
    | zero => exact ih (by omega)
    | succ count =>
      have hread := ih (by omega : text.length < fuel)
      rw [List.append_assoc]
      cases text with
      | nil =>
        -- these quotes and the closing ones are one row
        obtain ⟨fuel, rfl⟩ : ∃ n, fuel = n + 1 := ⟨fuel - 1, by omega⟩
        have hnil := (blockString?_fence (Nat.zero_le 2) hrest fuel).symm.trans hread
        obtain rfl : [] = cs := (Prod.mk.inj (Option.some.inj hnil)).1
        rw [List.append_nil]
        exact blockString?_fence few hrest _
      | cons c text =>
        rw [blockString?_quotes few (by simpa using last), hread]
        rfl

/-- A text without line feeds does not start with the end of a line, however it is written. -/
theorem newline?_ne_of_block (hline : quote ≠ '\n') (hreturn : quote ≠ '\r') {text cs : List Char}
    (h : Block quote escapes text cs) (hcs : '\n' ∉ cs) (rest : List Char) :
    newline? (text ++ (fence quote ++ rest)) = none := by
  induction h with
  | nil => exact newline?_of_ne hline hreturn _
  | @char p c text cs spells more ih =>
    cases spells with
    | plain printable =>
      obtain ⟨hfeed, hret⟩ := ne_of_isPrintable printable
      exact newline?_of_ne hfeed hret _
    | escape => exact newline?_of_ne (by decide) (by decide) _
  | line => exact absurd List.mem_cons_self hcs
  | @quotes text cs count few last more ih =>
    cases count with
    | zero => exact ih hcs
    | succ count =>
      rw [List.replicate_succ, List.cons_append, List.cons_append]
      exact newline?_of_ne hline hreturn _

end Blocks

/-! ### The characters of the writer -/

/-- Four hexadecimal digits stand for each control character, and are read as its code. -/
theorem hex4_spec : ∀ n < 128, (hex4 n).length = 4 ∧
    ((hex4 n).all fun c => (Text.hexValue? c).isSome) = true ∧ valueIn 16 (hex4 n) = n := by
  decide

/-- A control is read by its four digits. -/
theorem isEscape_hex4 {c : Char} (h : c.toNat < 128) : IsEscape ('u' :: hex4 c.toNat) c where
  stays _ := rfl
  reads rest := by
    obtain ⟨hlength, hdigits, hvalue⟩ := hex4_spec c.toNat h
    have htake : (hex4 c.toNat ++ rest).take 4 = hex4 c.toNat := List.take_left' hlength
    have hdrop : (hex4 c.toNat ++ rest).drop 4 = rest := List.drop_left' hlength
    have hunicode : c.toNat < 0xD800 := by omega
    change codePoint? 4 (hex4 c.toNat ++ rest) = some (c, rest)
    have hform : guard ((hex4 c.toNat).length = 4 &&
        (hex4 c.toNat).all fun c => (Text.hexValue? c).isSome) = some () :=
      if_pos (by simp [hlength, hdigits])
    have hscalar : guard (c.toNat < 0xD800 || (0xE000 ≤ c.toNat && c.toNat < 0x110000)) =
        some () := if_pos (by simp [hunicode])
    rw [codePoint?, htake, hdrop, hvalue, hform]
    extract_lets n
    rw [hscalar, Char.ofNat_toNat]
    rfl

/-- Only ASCII characters need an escape. -/
theorem toNat_lt_of_needsEscape {c : Char} (h : needsEscape c = true) : c.toNat < 128 := by
  simp only [needsEscape, Bool.or_eq_true, Bool.and_eq_true, decide_eq_true_eq] at h
  omega

/-- What needs no escape can be printed, but for the line feed. -/
theorem isPrintable_of_not_needsEscape {c : Char} (h : needsEscape c = false) (hc : c ≠ '\n') :
    isPrintable c = true := by
  simp only [needsEscape, Bool.or_eq_false_iff, Bool.and_eq_false_iff, bne_eq_false_iff_eq,
    decide_eq_false_iff_not, Nat.not_lt] at h
  obtain ⟨hcontrol, hdelete⟩ := h
  simp only [isPrintable, Bool.or_eq_true, beq_iff_eq, Bool.and_eq_true, bne_iff_ne,
    decide_eq_true_eq]
  rcases hcontrol with (hlow | htab) | hfeed
  · exact .inr ⟨hlow, hdelete⟩
  · exact .inl htab
  · exact absurd hfeed hc

/-- A character is spelled by its escape, if it has one. -/
theorem spells_escaped {block : Bool} {c : Char} (hquote : c ≠ '"')
    (hline : block = true → c ≠ '\n') : Spells '"' true (escaped block c) c := by
  have hbackspace : c.toNat = 8 → c = '\x08' := fun h => Char.toNat_inj.mp h
  have hform : c.toNat = 12 → c = '\x0c' := fun h => Char.toNat_inj.mp h
  unfold escaped
  split_ifs with hslash htab hfeed hblock hreturn h8 h12 hcontrol
  · subst hslash
    exact .escape rfl ⟨fun _ => rfl, fun _ => rfl⟩
  · exact htab ▸ .escape rfl ⟨fun _ => rfl, fun _ => rfl⟩
  · exact absurd hfeed (hline hblock)
  · exact hfeed ▸ .escape rfl ⟨fun _ => rfl, fun _ => rfl⟩
  · exact hreturn ▸ .escape rfl ⟨fun _ => rfl, fun _ => rfl⟩
  · exact hbackspace h8 ▸ .escape rfl ⟨fun _ => rfl, fun _ => rfl⟩
  · exact hform h12 ▸ .escape rfl ⟨fun _ => rfl, fun _ => rfl⟩
  · exact .escape rfl (isEscape_hex4 (toNat_lt_of_needsEscape hcontrol))
  · have hplain : needsEscape c = false := by simpa using hcontrol
    exact .plain (isPrintable_of_not_needsEscape hplain hfeed) hquote fun _ => hslash

/-- A character of a string on one line. -/
def spelled (c : Char) : List Char :=
  if c = '"' then ['\\', '"'] else escaped false c

theorem spells_quote : Spells '"' true ['\\', '"'] '"' :=
  .escape rfl ⟨fun _ => rfl, fun _ => rfl⟩

/-- The writer spells every character on one line. -/
theorem spells_spelled (c : Char) : Spells '"' true (spelled c) c := by
  unfold spelled
  split
  next h => exact h ▸ spells_quote
  next h => exact spells_escaped h nofun

/-- On one line a string is spelled character by character, and how many quotes stand in a row does
not matter. -/
theorem escapedBody_line (run : Nat) (cs : List Char) :
    escapedBody false run cs = cs.flatMap spelled := by
  induction cs generalizing run with
  | nil => rfl
  | cons c cs ih =>
    rw [List.flatMap_cons, escapedBody, spelled]
    split
    · rw [if_neg (by simp), ih]
      rfl
    · rw [ih]

/-- The writer escapes every third of a row of quotes. -/
theorem block_escapedBody {run : Nat} (hrun : run ≤ 2) (cs : List Char) :
    Block '"' true (List.replicate run '"' ++ escapedBody true run cs)
      (List.replicate run '"' ++ cs) := by
  induction cs generalizing run with
  | nil => exact .quotes hrun (by simp [escapedBody]) .nil
  | cons c cs ih =>
    have hmore : Block '"' true (escapedBody true 0 cs) cs := ih (Nat.zero_le 2)
    rw [escapedBody]
    split_ifs with hc hfew
    · have hlt : run < 2 := by simpa using hfew
      have hnext := ih (Nat.succ_le_of_lt hlt)
      rw [List.replicate_succ', List.append_assoc, List.append_assoc] at hnext
      exact hc ▸ hnext
    · subst hc
      exact .quotes hrun (by simp) (.char spells_quote hmore)
    · by_cases hfeed : c = '\n'
      · subst hfeed
        have hlast : ('\n' :: escapedBody true 0 cs).head? ≠ some '"' := by simp
        exact .quotes hrun hlast (.line hmore)
      · have hspells : Spells '"' true (escaped true c) c := spells_escaped hc fun _ => hfeed
        exact .quotes hrun (hspells.head?_ne (by decide) _) (.char hspells hmore)

/-- Single quotes take rows of up to two of them as they are. -/
theorem block_literal {run : Nat} {cs : List Char} (hruns : longestRun '\x27' run cs ≤ 2)
    (hplain : ∀ c ∈ cs, needsEscape c = false) :
    Block '\x27' false (List.replicate run '\x27' ++ cs) (List.replicate run '\x27' ++ cs) := by
  induction cs generalizing run with
  | nil => exact .quotes hruns (by simp) .nil
  | cons c cs ih =>
    obtain ⟨hc, hcs⟩ := List.forall_mem_cons.mp hplain
    rw [longestRun] at hruns
    split at hruns
    next hquote =>
      have hnext := ih hruns hcs
      rw [List.replicate_succ', List.append_assoc] at hnext
      exact hquote ▸ hnext
    next hquote =>
      obtain ⟨hrun, hrest⟩ := Nat.max_le.mp hruns
      have hmore : Block '\x27' false cs cs := ih hrest hcs
      have hlast : (c :: cs).head? ≠ some '\x27' := by simpa using hquote
      by_cases hfeed : c = '\n'
      · exact .quotes hrun hlast (hfeed ▸ .line hmore)
      · have hspells : Spells '\x27' false [c] c :=
          .plain (isPrintable_of_not_needsEscape hc hfeed) hquote nofun
        exact .quotes hrun hlast (.char hspells hmore)

/-! ### Strings and keys -/

/-- The two quotes, and whether there are escapes between them. -/
inductive Quoting : Char → Bool → Prop
  | basic : Quoting '"' true
  | literal : Quoting '\x27' false

section Quotings

variable {quote : Char} {escapes : Bool} {spelling : Char → List Char} {cs rest : List Char}

/-- The quotes are neither a backslash nor part of the end of a line. -/
theorem Quoting.ne_of_mem (h : Quoting quote escapes) {c : Char} (hc : c ∈ ['\\', '\n', '\r']) :
    quote ≠ c := by
  rintro rfl
  cases h <;> exact absurd hc (by decide)

/-- A key that starts with a quote is read like a string on one line. -/
theorem Quoting.simpleKey? (h : Quoting quote escapes) (text : List Char) :
    simpleKey? (quote :: text) =
      (lineString? quote escapes (text.length + 1) text).map fun p => (String.ofList p.1, p.2) := by
  cases h <;> rfl

/-- A string starts on its line unless two more quotes follow the first. -/
theorem Quoting.string? (h : Quoting quote escapes) {text : List Char}
    (htext : ∀ more, text ≠ quote :: quote :: more) :
    Toml.string? (quote :: text) = Toml.simpleKey? (quote :: text) := by
  cases h with
  | basic =>
    unfold Toml.string?
    split
    next heq => exact absurd (List.cons.inj heq).2 (htext _)
    next heq => exact absurd (List.cons.inj heq).1 (by decide)
    next heq => cases heq; rfl
    next heq => exact absurd (List.cons.inj heq).1 (by decide)
    next hno _ => exact absurd rfl (hno text)
  | literal =>
    unfold Toml.string?
    split
    next heq => exact absurd (List.cons.inj heq).1 (by decide)
    next heq => exact absurd (List.cons.inj heq).2 (htext _)
    next heq => exact absurd (List.cons.inj heq).1 (by decide)
    next heq => cases heq; rfl
    next hno => exact absurd rfl (hno text)

/-- A string that starts with three quotes is read as one on many lines. -/
theorem Quoting.string?_fence (h : Quoting quote escapes) (text : List Char) :
    Toml.string? (fence quote ++ text) =
      (block? quote escapes text).map fun p => (String.ofList p.1, p.2) := by
  cases h <;> rfl

/-- A key between quotes is read in full. -/
theorem Quoting.simpleKey?_flatMap (h : Quoting quote escapes)
    (hcs : ∀ c ∈ cs, Spells quote escapes (spelling c) c) (rest : List Char) :
    Toml.simpleKey? (quote :: (cs.flatMap spelling ++ quote :: rest)) =
      some (String.ofList cs, rest) := by
  have hlength := length_le_flatMap hcs
  have hfuel : cs.length < (cs.flatMap spelling ++ quote :: rest).length + 1 := by
    rw [List.length_append]
    omega
  rw [h.simpleKey?, lineString?_flatMap (h.ne_of_mem (by simp)) hcs hfuel, Option.map_some]

/-- A string on one line is read in full. -/
theorem Quoting.string?_flatMap (h : Quoting quote escapes)
    (hcs : ∀ c ∈ cs, Spells quote escapes (spelling c) c) (hrest : rest.head? ≠ some quote) :
    Toml.string? (quote :: (cs.flatMap spelling ++ quote :: rest)) =
      some (String.ofList cs, rest) := by
  refine (h.string? fun more hmore => ?_).trans (h.simpleKey?_flatMap hcs rest)
  cases cs with
  | nil =>
    obtain rfl : rest = quote :: more := (List.cons.inj hmore).2
    exact hrest rfl
  | cons c cs =>
    rw [List.flatMap_cons, List.append_assoc] at hmore
    exact (hcs c List.mem_cons_self).head?_ne (h.ne_of_mem (by simp)) _ (by rw [hmore]; rfl)

/-- A string on many lines is read in full. -/
theorem Quoting.string?_block (h : Quoting quote escapes) {text : List Char}
    (hblock : Block quote escapes text cs) (hrest : rest.head? ≠ some quote) :
    Toml.string? (fence quote ++ (leadingLine cs ++ (text ++ (fence quote ++ rest)))) =
      some (String.ofList cs, rest) := by
  have hquote : quote ≠ '\\' := h.ne_of_mem (by simp)
  have hfeed : quote ≠ '\n' := h.ne_of_mem (by simp)
  have hbody : (newline? (leadingLine cs ++ (text ++ (fence quote ++ rest)))).getD
      (leadingLine cs ++ (text ++ (fence quote ++ rest))) = text ++ (fence quote ++ rest) := by
    unfold leadingLine
    split
    next => rfl
    next hline =>
      have hcs : '\n' ∉ cs := by simpa using hline
      rw [List.nil_append, newline?_ne_of_block hfeed (h.ne_of_mem (by simp)) hblock hcs]
      rfl
  have hfuel : text.length < (text ++ (fence quote ++ rest)).length + 1 := by
    rw [List.length_append]
    omega
  simp only [h.string?_fence, block?, hbody, hblock.blockString? hquote hfeed hrest hfuel,
    Option.map_some]

end Quotings

/-- A text that needs no escape between single quotes spells itself. -/
theorem spells_literal {cs : List Char} (h : fitsLiteral cs = true) :
    ∀ c ∈ cs, Spells '\x27' false [c] c := by
  intro c hc
  simp only [fitsLiteral, Bool.not_eq_true', List.any_eq_false, Bool.or_eq_true, not_or,
    beq_iff_eq, Bool.not_eq_true] at h
  obtain ⟨⟨hplain, hfeed⟩, hquote⟩ := h c hc
  exact .plain (isPrintable_of_not_needsEscape hplain hfeed) hquote nofun

section Forms

variable (cs rest : List Char)

theorem basic_append :
    basic cs ++ rest = '"' :: (cs.flatMap spelled ++ '"' :: rest) := by
  simp [basic, escapedBody_line]

theorem literal_append :
    literal cs ++ rest = '\x27' :: (cs.flatMap (fun c => [c]) ++ '\x27' :: rest) := by
  simp [literal]

theorem basicBlock_append : basicBlock cs ++ rest =
    fence '"' ++ (leadingLine cs ++ (escapedBody true 0 cs ++ (fence '"' ++ rest))) := by
  simp [basicBlock, fence]

theorem literalBlock_append : literalBlock cs ++ rest =
    fence '\x27' ++ (leadingLine cs ++ (cs ++ (fence '\x27' ++ rest))) := by
  simp [literalBlock, fence]

end Forms

/-- **Every string is read back, whatever form it is written in.** -/
theorem string?_string {rest : List Char} (hdouble : rest.head? ≠ some '"')
    (hsingle : rest.head? ≠ some '\x27') (cs : List Char) :
    string? (string cs ++ rest) = some (String.ofList cs, rest) := by
  have hbasic : string? (basic cs ++ rest) = some (String.ofList cs, rest) := by
    rw [basic_append]
    exact Quoting.basic.string?_flatMap (fun c _ => spells_spelled c) hdouble
  have hblock : string? (basicBlock cs ++ rest) = some (String.ofList cs, rest) := by
    rw [basicBlock_append]
    exact Quoting.basic.string?_block (block_escapedBody (Nat.zero_le 2) cs) hdouble
  unfold string
  simp only []
  split_ifs with hfits hliteral hthree hsingles
  · exact hbasic
  · rw [literal_append]
    exact Quoting.literal.string?_flatMap (spells_literal hliteral) hsingle
  · exact hblock
  · simp only [Bool.and_eq_true, Bool.not_eq_true', List.any_eq_false, Bool.not_eq_true,
      decide_eq_true_eq] at hsingles
    rw [literalBlock_append]
    exact Quoting.literal.string?_block (block_literal hsingles.2 hsingles.1) hsingle
  · exact hblock
  · exact hbasic

/-- A string starts with a quote. -/
theorem string_eq_cons (cs : List Char) :
    ∃ quote escapes text, Quoting quote escapes ∧ string cs = quote :: text := by
  unfold string
  simp only []
  split_ifs
  · exact ⟨_, _, _, .basic, rfl⟩
  · exact ⟨_, _, _, .literal, rfl⟩
  · exact ⟨_, _, _, .basic, rfl⟩
  · exact ⟨_, _, _, .literal, rfl⟩
  · exact ⟨_, _, _, .basic, rfl⟩
  · exact ⟨_, _, _, .basic, rfl⟩

/-- A bare key has at least one character, and no other than letters, digits, dashes and
underscores. -/
theorem isBare_iff {cs : List Char} :
    isBare cs = true ↔ cs ≠ [] ∧ ∀ c ∈ cs, isBareChar c = true := by
  simp [isBare, isBareChar]

/-- A bare key is read up to the first character that it cannot have. -/
theorem simpleKey?_bare {cs rest : List Char} (hcs : isBare cs = true)
    (hrest : ∀ c ∈ rest.head?, isBareChar c = false) :
    simpleKey? (cs ++ rest) = some (String.ofList cs, rest) := by
  obtain ⟨hne, hbare⟩ := isBare_iff.mp hcs
  have hrun : (cs ++ rest).takeWhile isBareChar = cs := takeWhile_append_of_stop hbare hrest
  have hfirst : ∀ c text, cs ++ rest = c :: text → isBareChar c = true :=
    fun _ _ => first_of_run hne hbare
  unfold simpleKey?
  split
  next heq => exact absurd (hfirst _ _ heq) (by decide)
  next heq => exact absurd (hfirst _ _ heq) (by decide)
  next => simp [hrun, hne]

/-- **Every key is read back, whatever form it is written in.** -/
theorem simpleKey?_key {rest : List Char} (hrest : ∀ c ∈ rest.head?, isBareChar c = false)
    (name : String) : simpleKey? (key name ++ rest) = some (name, rest) := by
  have hbasic : simpleKey? (basic name.toList ++ rest) = some (name, rest) := by
    rw [basic_append, Quoting.basic.simpleKey?_flatMap fun c _ => spells_spelled c,
      String.ofList_toList]
  unfold key
  simp only []
  split_ifs with hbare hfits hliteral
  · rw [simpleKey?_bare hbare hrest, String.ofList_toList]
  · exact hbasic
  · rw [literal_append, Quoting.literal.simpleKey?_flatMap (spells_literal hliteral),
      String.ofList_toList]
  · exact hbasic

/-- Characters that a key can start with. -/
def isKeyStart (c : Char) : Bool :=
  isBareChar c || c == '"' || c == '\x27'

/-- A key starts with a bare character or a quote, so its line is not taken for a header or a
comment. -/
theorem key_eq_cons (name : String) : ∃ c text, isKeyStart c = true ∧ key name = c :: text := by
  unfold key
  simp only []
  split_ifs with hbare
  · obtain ⟨hne, hall⟩ := isBare_iff.mp hbare
    cases hcs : name.toList with
    | nil => exact absurd hcs hne
    | cons c cs =>
      have hc : isBareChar c = true := hall c (hcs ▸ List.mem_cons_self)
      exact ⟨c, cs, by simp [isKeyStart, hc], rfl⟩
  · exact ⟨_, _, rfl, rfl⟩
  · exact ⟨_, _, rfl, rfl⟩
  · exact ⟨_, _, rfl, rfl⟩

end HealthMonitor.Toml
