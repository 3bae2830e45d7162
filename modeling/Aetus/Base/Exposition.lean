import Aetus.Base.Json
import Mathlib.Data.List.Nodup

/-!
The text format of Prometheus: a reader of its grammar, and what it makes of lines that are
printed in one way.
-/

set_option autoImplicit false

namespace Aetus.Base.Prometheus

/-! Tokens -/

def isBlank (c : Char) : Bool := c = ' ' || c = '\t'

def skipBlanks (text : List Char) : List Char := text.dropWhile isBlank

def words (text : List Char) : List (List Char) := (text.splitOnP isBlank).filter (· ≠ [])

def isLabelStart (c : Char) : Bool := c.isAlpha || c = '_'

def isLabelChar (c : Char) : Bool := isLabelStart c || c.isDigit

def isMetricStart (c : Char) : Bool := isLabelStart c || c = ':'

def isMetricChar (c : Char) : Bool := isMetricStart c || c.isDigit

def isName (start char : Char → Bool) (name : List Char) : Bool :=
  name.head?.any start && name.all char

def isMetricName (name : List Char) : Bool := isName isMetricStart isMetricChar name

def isLabelName (name : List Char) : Bool := isName isLabelStart isLabelChar name

def readName (start char : Char → Bool) (text : List Char) : Option (List Char × List Char) :=
  if (text.takeWhile char).head?.any start then
    some (text.takeWhile char, text.dropWhile char)
  else none

def readQuoted : List Char → Option (List Char × List Char)
  | '"' :: rest => some ([], rest)
  | '\\' :: '\\' :: rest => (readQuoted rest).map (Prod.map ('\\' :: ·) id)
  | '\\' :: '"' :: rest => (readQuoted rest).map (Prod.map ('"' :: ·) id)
  | '\\' :: 'n' :: rest => (readQuoted rest).map (Prod.map ('\n' :: ·) id)
  | c :: rest =>
    if c = '\\' ∨ c = '\n' then none else (readQuoted rest).map (Prod.map (c :: ·) id)
  | [] => none

def readLabelValue (text : List Char) : Option (List Char × List Char) :=
  match skipBlanks text with
  | '=' :: rest =>
    match skipBlanks rest with
    | '"' :: rest => readQuoted rest
    | _ => none
  | _ => none

abbrev Labels := List (List Char × List Char)

def readLabels : Nat → List Char → Option (Labels × List Char)
  | 0, _ => none
  | fuel + 1, text =>
    match readName isLabelStart isLabelChar (skipBlanks text) with
    | none =>
      match skipBlanks text with
      | '}' :: rest => some ([], rest)
      | _ => none
    | some (name, rest) =>
      (readLabelValue rest).bind fun (value, rest) =>
        match skipBlanks rest with
        | ',' :: rest => (readLabels fuel rest).map (Prod.map ((name, value) :: ·) id)
        | '}' :: rest => some ([(name, value)], rest)
        | _ => none

inductive Number where
  | integer (n : Nat)
  | real (text : List Char)
  deriving DecidableEq

def isSpecial (token : List Char) : Bool :=
  ["inf".toList, "infinity".toList, "nan".toList].contains
    ((JsonText.sign token).map Char.toLower)

def readNumber (token : List Char) : Option Number :=
  if token ≠ [] ∧ token.all Char.isDigit then some (.integer (Nat.ofDigitChars 10 token 0))
  else if JsonText.number token = some [] ∨ isSpecial token then some (.real token)
  else none

/-! Lines -/

structure Sample where
  name : List Char
  labels : Labels
  value : Number
  timestamp : Option (List Char)
  deriving DecidableEq

inductive MetricType where
  | counter
  | gauge
  | histogram
  | summary
  | untyped
  deriving DecidableEq

def METRIC_TYPES : List (List Char × MetricType) :=
  [("counter".toList, .counter), ("gauge".toList, .gauge), ("histogram".toList, .histogram),
    ("summary".toList, .summary), ("untyped".toList, .untyped)]

inductive Line where
  | ignored
  | help (name : List Char)
  | type (name : List Char) (kind : MetricType)
  | sample (sample : Sample)
  deriving DecidableEq

def readComment : List (List Char) → Option Line
  | [] => some .ignored
  | keyword :: tokens =>
    if keyword = "HELP".toList then
      tokens.head?.bind fun name => if isMetricName name then some (.help name) else none
    else if keyword = "TYPE".toList then
      match tokens with
      | [name, kind] =>
        if isMetricName name then (METRIC_TYPES.lookup kind).map (.type name) else none
      | _ => none
    else some .ignored

def readValue : List (List Char) → Option (Number × Option (List Char))
  | [value] => (readNumber value).map fun value => (value, none)
  | [value, timestamp] =>
    if JsonText.digits (JsonText.sign timestamp) = some [] then
      (readNumber value).map fun value => (value, some timestamp)
    else none
  | _ => none

def readLabelBlock (text : List Char) : Option (Labels × List Char) :=
  match skipBlanks text with
  | '{' :: rest => readLabels (rest.length + 1) rest
  | rest => some ([], rest)

def readSample (line : List Char) : Option Sample :=
  (readName isMetricStart isMetricChar line).bind fun (name, rest) =>
    (readLabelBlock rest).bind fun (labels, rest) =>
      (readValue (words rest)).map fun (value, timestamp) => ⟨name, labels, value, timestamp⟩

def readLine (line : List Char) : Option Line :=
  match skipBlanks line with
  | [] => some .ignored
  | '#' :: rest => readComment (words rest)
  | text => (readSample text).map .sample

/-! Texts -/

/-- What has been read: the types that are declared, each sample with the type that its metric
had then, the metrics that have a help text, and the groups of lines, the last one first. -/
structure Exposition where
  types : List (List Char × MetricType)
  samples : List (MetricType × Sample)
  helped : List (List Char)
  groups : List (List Char)
  deriving DecidableEq

namespace Exposition

def empty : Exposition := ⟨[], [], [], []⟩

def enter (doc : Exposition) (name : List Char) : Option Exposition :=
  if doc.groups.head? = some name then some doc
  else if doc.groups.contains name then none
  else some { doc with groups := name :: doc.groups }

def typeOf (doc : Exposition) (name : List Char) : MetricType :=
  (doc.types.lookup name).getD .untyped

def add (doc : Exposition) : Line → Option Exposition
  | .ignored => some doc
  | .help name =>
    if doc.helped.contains name then none
    else (doc.enter name).map fun doc => { doc with helped := doc.helped ++ [name] }
  | .type name kind =>
    if (doc.types.map Prod.fst).contains name ||
        (doc.samples.map fun sample => sample.2.name).contains name then none
    else (doc.enter name).map fun doc => { doc with types := doc.types ++ [(name, kind)] }
  | .sample sample =>
    if (sample.labels.map Prod.fst).Nodup ∧ ∀ other ∈ doc.samples,
        ¬(other.2.name = sample.name ∧ other.2.labels.Perm sample.labels) then
      (doc.enter sample.name).map fun doc =>
        { doc with samples := doc.samples ++ [(doc.typeOf sample.name, sample)] }
    else none

end Exposition

def readLines (lines : List (List Char)) : Option Exposition :=
  (lines.mapM readLine).bind fun lines => lines.foldlM Exposition.add .empty

def parse (text : List Char) : Option Exposition :=
  let lines := text.splitOn '\n'
  if lines.getLast? = some [] then readLines lines.dropLast else none

/-! Names -/

theorem readName_append {start char : Char → Bool} {name rest : List Char}
    (hname : isName start char name = true) (hrest : ∀ c ∈ rest.head?, char c = false) :
    readName start char (name ++ rest) = some (name, rest) := by
  obtain ⟨hstart, hall⟩ := Bool.and_eq_true_iff.mp hname
  have hchars : ∀ c ∈ name, char c = true := List.all_eq_true.mp hall
  have hstop : rest.takeWhile char = [] ∧ rest.dropWhile char = rest := by
    cases rest with
    | nil => exact ⟨rfl, rfl⟩
    | cons c rest =>
      have hc := hrest c rfl
      exact ⟨List.takeWhile_cons_of_neg (by simp [hc]), List.dropWhile_cons_of_neg (by simp [hc])⟩
  have htake : (name ++ rest).takeWhile char = name := by
    rw [List.takeWhile_append_of_pos hchars, hstop.1, List.append_nil]
  have hdrop : (name ++ rest).dropWhile char = rest := by
    rw [List.dropWhile_append_of_pos hchars, hstop.2]
  rw [readName, htake, hdrop, if_pos hstart]

theorem exists_cons_of_isName {start char : Char → Bool} {name : List Char}
    (h : isName start char name = true) : ∃ c rest, name = c :: rest ∧ start c = true := by
  obtain ⟨hstart, -⟩ := Bool.and_eq_true_iff.mp h
  cases name with
  | nil => cases hstart
  | cons c rest => exact ⟨c, rest, rfl, by simpa using hstart⟩

theorem char_ne {p : Char → Bool} {c d : Char} (hc : p c = true) (hd : p d = false) : c ≠ d := by
  rintro rfl
  rw [hc] at hd
  cases hd

theorem isBlank_eq_false {p : Char → Bool} {c : Char} (hc : p c = true) (hspace : p ' ' = false)
    (htab : p '\t' = false) : isBlank c = false := by
  simp [isBlank, char_ne hc hspace, char_ne hc htab]

theorem isBlank_of_isMetricChar {c : Char} (h : isMetricChar c = true) :
    isBlank c = false ∧ c ≠ '\n' ∧ c ≠ '#' :=
  ⟨isBlank_eq_false h (by decide) (by decide), char_ne h (by decide), char_ne h (by decide)⟩

theorem isMetricChar_of_isMetricStart {c : Char} (h : isMetricStart c = true) :
    isMetricChar c = true := by
  rw [isMetricChar, h, Bool.true_or]

theorem isMetricChar_of_isLabelChar {c : Char} (h : isLabelChar c = true) :
    isMetricChar c = true := by
  rw [isLabelChar, Bool.or_eq_true] at h
  rw [isMetricChar, isMetricStart, Bool.or_eq_true, Bool.or_eq_true]
  exact h.imp_left .inl

theorem skipBlanks_cons {c : Char} {rest : List Char} (h : isBlank c = false) :
    skipBlanks (c :: rest) = c :: rest := by
  rw [skipBlanks, List.dropWhile_cons_of_neg (by simp [h])]

theorem skipBlanks_name {start char : Char → Bool} {name rest : List Char}
    (hname : isName start char name = true) (hstart : ∀ c, start c = true → isMetricChar c = true) :
    skipBlanks (name ++ rest) = name ++ rest := by
  obtain ⟨c, tail, rfl, hc⟩ := exists_cons_of_isName hname
  exact skipBlanks_cons (isBlank_of_isMetricChar (hstart c hc)).1

/-! Labels -/

def escaped (c : Char) : List Char :=
  if c = '\\' then "\\\\".toList
  else if c = '\n' then "\\n".toList
  else if c = '"' then "\\\"".toList
  else [c]

theorem readQuoted_escaped (c : Char) (rest : List Char) :
    readQuoted (escaped c ++ rest) = (readQuoted rest).map (Prod.map (c :: ·) id) := by
  by_cases hslash : c = '\\'
  · subst hslash
    rfl
  by_cases hnewline : c = '\n'
  · subst hnewline
    rfl
  by_cases hquote : c = '"'
  · subst hquote
    rfl
  rw [escaped, if_neg hslash, if_neg hnewline, if_neg hquote, List.singleton_append]
  simp [readQuoted, hslash, hnewline]

theorem readQuoted_flatMap (value rest : List Char) :
    readQuoted (value.flatMap escaped ++ '"' :: rest) = some (value, rest) := by
  induction value with
  | nil => rfl
  | cons c value ih =>
    rw [List.flatMap_cons, List.append_assoc, readQuoted_escaped, ih]
    rfl

def printLabel (label : List Char × List Char) : List Char :=
  label.1 ++ '=' :: '"' :: (label.2.flatMap escaped ++ ['"'])

def printLabels (labels : Labels) : List Char := [','].intercalate (labels.map printLabel)

theorem printLabels_cons_cons (label next : List Char × List Char) (labels : Labels) :
    printLabels (label :: next :: labels) =
      printLabel label ++ ',' :: printLabels (next :: labels) := by
  simp [printLabels]

theorem length_le_length_printLabels (labels : Labels) :
    labels.length ≤ (printLabels labels).length := by
  induction labels with
  | nil => exact Nat.zero_le _
  | cons label labels ih =>
    have hlabel : 1 ≤ (printLabel label).length := by
      simp only [printLabel, List.length_append, List.length_cons]
      omega
    cases labels with
    | nil => simpa [printLabels] using hlabel
    | cons next labels =>
      simp only [printLabels_cons_cons, List.length_append, List.length_cons] at ih ⊢
      omega

theorem readLabel_print {label : List Char × List Char} (hname : isLabelName label.1 = true)
    (rest : List Char) :
    skipBlanks (printLabel label ++ rest) = printLabel label ++ rest ∧
      readName isLabelStart isLabelChar (printLabel label ++ rest) =
        some (label.1, '=' :: '"' :: (label.2.flatMap escaped ++ '"' :: rest)) ∧
      readLabelValue ('=' :: '"' :: (label.2.flatMap escaped ++ '"' :: rest)) =
        some (label.2, rest) := by
  have htext : printLabel label ++ rest =
      label.1 ++ '=' :: '"' :: (label.2.flatMap escaped ++ '"' :: rest) := by
    simp [printLabel]
  refine ⟨?_, ?_, ?_⟩
  · rw [htext]
    refine skipBlanks_name hname fun c hc => isMetricChar_of_isLabelChar ?_
    rw [isLabelChar, hc, Bool.true_or]
  · rw [htext]
    refine readName_append hname fun c hc => ?_
    obtain rfl := Option.some.inj hc
    decide
  · have hequals : skipBlanks ('=' :: '"' :: (label.2.flatMap escaped ++ '"' :: rest)) =
        '=' :: '"' :: (label.2.flatMap escaped ++ '"' :: rest) := skipBlanks_cons (by decide)
    have hopen : skipBlanks ('"' :: (label.2.flatMap escaped ++ '"' :: rest)) =
        '"' :: (label.2.flatMap escaped ++ '"' :: rest) := skipBlanks_cons (by decide)
    rw [readLabelValue, hequals]
    exact (congrArg (fun text => match text with
      | '"' :: rest => readQuoted rest
      | _ => none) hopen).trans (readQuoted_flatMap label.2 rest)

theorem readLabels_print {labels : Labels} (hne : labels ≠ [])
    (hnames : ∀ label ∈ labels, isLabelName label.1 = true) (rest : List Char) {fuel : Nat}
    (hfuel : labels.length ≤ fuel) :
    readLabels fuel (printLabels labels ++ '}' :: rest) = some (labels, rest) := by
  induction labels generalizing fuel with
  | nil => exact absurd rfl hne
  | cons label labels ih =>
    obtain ⟨hname, hrest⟩ := List.forall_mem_cons.mp hnames
    obtain ⟨fuel, rfl⟩ : ∃ n, fuel = n + 1 := ⟨fuel - 1, by
      rw [List.length_cons] at hfuel
      omega⟩
    cases labels with
    | nil =>
      obtain ⟨hskip, hread, hvalue⟩ := readLabel_print hname ('}' :: rest)
      have hclose : skipBlanks ('}' :: rest) = '}' :: rest := skipBlanks_cons (by decide)
      have htext : printLabels [label] = printLabel label := by simp [printLabels]
      rw [htext, readLabels, hskip, hread]
      dsimp only
      rw [hvalue, Option.bind_some]
      dsimp only
      rw [hclose]
      rfl
    | cons next labels =>
      have htext : printLabels (label :: next :: labels) ++ '}' :: rest =
          printLabel label ++ ',' :: (printLabels (next :: labels) ++ '}' :: rest) := by
        rw [printLabels_cons_cons, List.append_assoc, List.cons_append]
      obtain ⟨hskip, hread, hvalue⟩ :=
        readLabel_print hname (',' :: (printLabels (next :: labels) ++ '}' :: rest))
      have hcomma : skipBlanks (',' :: (printLabels (next :: labels) ++ '}' :: rest)) =
          ',' :: (printLabels (next :: labels) ++ '}' :: rest) := skipBlanks_cons (by decide)
      have hfuel' : (next :: labels).length ≤ fuel := by
        rw [List.length_cons] at hfuel
        omega
      have hmore := ih (List.cons_ne_nil next labels) hrest hfuel'
      rw [htext, readLabels, hskip, hread]
      dsimp only
      rw [hvalue, Option.bind_some]
      dsimp only
      rw [hcomma]
      exact (congrArg (Option.map (Prod.map ((label.1, label.2) :: ·) id)) hmore)

/-! Numbers -/

def isNumberChar (c : Char) : Bool :=
  c.isDigit || c = '.' || c = 'e' || c = 'E' || c = '+' || c = '-'

/-- What a reader takes off a text is made of characters of numbers. -/
def TakesNumberChars (read : List Char → Option (List Char)) : Prop :=
  ∀ text rest, read text = some rest →
    ∃ front, text = front ++ rest ∧ ∀ c ∈ front, isNumberChar c = true

theorem takesNumberChars_cons {read : List Char → Option (List Char)}
    (hread : TakesNumberChars read) {c : Char} (hc : isNumberChar c = true) {text rest : List Char}
    (h : read text = some rest) :
    ∃ front, c :: text = front ++ rest ∧ ∀ d ∈ front, isNumberChar d = true := by
  obtain ⟨front, rfl, hfront⟩ := hread text rest h
  exact ⟨c :: front, rfl, List.forall_mem_cons.mpr ⟨hc, hfront⟩⟩

theorem takesNumberChars_digits : TakesNumberChars JsonText.digits := by
  intro text rest h
  cases text with
  | nil => cases h
  | cons c text =>
    rw [JsonText.digits] at h
    split at h
    · next hc =>
      cases h
      refine ⟨c :: text.takeWhile Char.isDigit, by simp, ?_⟩
      refine List.forall_mem_cons.mpr ⟨by simp [isNumberChar, hc], fun d hd => ?_⟩
      simp [isNumberChar, List.mem_takeWhile_imp hd]
    · cases h

theorem takesNumberChars_sign {text rest : List Char}
    (h : JsonText.digits (JsonText.sign text) = some rest) :
    ∃ front, text = front ++ rest ∧ ∀ c ∈ front, isNumberChar c = true := by
  unfold JsonText.sign at h
  split at h
  · exact takesNumberChars_cons takesNumberChars_digits (by decide) h
  · exact takesNumberChars_cons takesNumberChars_digits (by decide) h
  · exact takesNumberChars_digits _ _ h

theorem takesNumberChars_int : TakesNumberChars JsonText.int := by
  intro text rest h
  unfold JsonText.int at h
  split at h
  · cases h
    exact ⟨['0'], rfl, List.forall_mem_singleton.mpr rfl⟩
  · exact takesNumberChars_digits _ _ h

theorem takesNumberChars_frac : TakesNumberChars JsonText.frac := by
  intro text rest h
  unfold JsonText.frac at h
  split at h
  · exact takesNumberChars_cons takesNumberChars_digits (by decide) h
  · cases h
    exact ⟨[], rfl, nofun⟩

theorem takesNumberChars_exp : TakesNumberChars JsonText.exp := by
  intro text rest h
  unfold JsonText.exp at h
  split at h
  · obtain ⟨front, rfl, hfront⟩ := takesNumberChars_sign h
    exact ⟨'e' :: front, rfl, List.forall_mem_cons.mpr ⟨by decide, hfront⟩⟩
  · obtain ⟨front, rfl, hfront⟩ := takesNumberChars_sign h
    exact ⟨'E' :: front, rfl, List.forall_mem_cons.mpr ⟨by decide, hfront⟩⟩
  · cases h
    exact ⟨[], rfl, nofun⟩

theorem takesNumberChars_bind {read next : List Char → Option (List Char)}
    (hread : TakesNumberChars read) (hnext : TakesNumberChars next) :
    TakesNumberChars fun text => (read text).bind next := by
  intro text rest h
  obtain ⟨middle, hmiddle, hrest⟩ := Option.bind_eq_some_iff.mp h
  obtain ⟨front, rfl, hfront⟩ := hread text middle hmiddle
  obtain ⟨back, rfl, hback⟩ := hnext middle rest hrest
  refine ⟨front ++ back, (List.append_assoc _ _ _).symm, fun c hc => ?_⟩
  exact (List.mem_append.mp hc).elim (hfront c) (hback c)

theorem takesNumberChars_number : TakesNumberChars JsonText.number := by
  have hunsigned : TakesNumberChars JsonText.unsigned :=
    takesNumberChars_bind takesNumberChars_int
      (takesNumberChars_bind takesNumberChars_frac takesNumberChars_exp)
  intro text rest h
  unfold JsonText.number at h
  split at h
  · exact takesNumberChars_cons hunsigned (by decide) h
  · exact hunsigned _ _ h

structure IsValue (token : List Char) (number : Number) : Prop where
  nonempty : token ≠ []
  chars : ∀ c ∈ token, isNumberChar c = true
  reads : readNumber token = some number

theorem isValue_toDigits (n : Nat) : IsValue (Nat.toDigits 10 n) (.integer n) where
  nonempty := Nat.toDigits_ne_nil
  chars c hc := by
    rw [isNumberChar, Nat.isDigit_of_mem_toDigits (by decide) (by decide) hc]
    rfl
  reads := by
    have hdigits : (Nat.toDigits 10 n).all Char.isDigit = true := List.all_eq_true.mpr fun c hc =>
      Nat.isDigit_of_mem_toDigits (by decide) (by decide) hc
    rw [readNumber, if_pos ⟨Nat.toDigits_ne_nil, hdigits⟩, Nat.ofDigitChars_ten_toDigits]

theorem isValue_repr (x : FiniteDouble) : ∃ number, IsValue x.repr number := by
  obtain ⟨front, hfront, hchars⟩ := takesNumberChars_number x.repr [] x.isNumber
  rw [List.append_nil] at hfront
  rw [← hfront] at hchars
  have hnonempty : x.repr ≠ [] := by
    intro hnil
    have hnumber := x.isNumber
    rw [hnil] at hnumber
    cases hnumber
  by_cases hdigits : x.repr ≠ [] ∧ x.repr.all Char.isDigit = true
  · exact ⟨_, hnonempty, hchars, by rw [readNumber, if_pos hdigits]⟩
  · exact ⟨.real x.repr, hnonempty, hchars, by
      rw [readNumber, if_neg hdigits, if_pos (.inl x.isNumber)]⟩

/-! Lines that come back -/

theorem words_blank (text : List Char) : words (' ' :: text) = words text := by
  rw [words, List.splitOnP_cons_eq_if_modifyHead, if_pos (by decide)]
  rfl

theorem words_token {token : List Char} (hne : token ≠ []) (h : ∀ c ∈ token, isBlank c = false) :
    words token = [token] := by
  rw [words, List.splitOnP_eq_singleton h]
  simp [hne]

theorem words_cons {token : List Char} (hne : token ≠ []) (h : ∀ c ∈ token, isBlank c = false)
    (text : List Char) : words (token ++ ' ' :: text) = token :: words text := by
  rw [words, List.splitOnP_append_cons_of_forall_mem h ' ' (by decide)]
  simp [words, hne]

theorem isBlank_of_isMetricName {name : List Char} (h : isMetricName name = true) :
    name ≠ [] ∧ ∀ c ∈ name, isBlank c = false := by
  obtain ⟨c, rest, hname, -⟩ := exists_cons_of_isName h
  refine ⟨by rw [hname]; exact List.cons_ne_nil c rest, fun d hd => ?_⟩
  exact (isBlank_of_isMetricChar (List.all_eq_true.mp (Bool.and_eq_true_iff.mp h).2 d hd)).1

def typeLine (name kind : List Char) : List Char := "# TYPE ".toList ++ (name ++ ' ' :: kind)

theorem readLine_typeLine {name kind : List Char} {type : MetricType}
    (hname : isMetricName name = true) (hkind : (kind, type) ∈ METRIC_TYPES) :
    readLine (typeLine name kind) = some (.type name type) := by
  obtain ⟨hne, hchars⟩ := isBlank_of_isMetricName hname
  have htoken : kind ≠ [] ∧ (∀ c ∈ kind, isBlank c = false) ∧
      METRIC_TYPES.lookup kind = some type := by
    have hall : ∀ entry ∈ METRIC_TYPES, entry.1 ≠ [] ∧
        entry.1.all (fun c => !isBlank c) = true ∧
          METRIC_TYPES.lookup entry.1 = some entry.2 := by decide
    obtain ⟨hnonempty, hblank, hlookup⟩ := hall _ hkind
    exact ⟨hnonempty, by simpa using hblank, hlookup⟩
  have hwords : words (" TYPE ".toList ++ (name ++ ' ' :: kind)) =
      ["TYPE".toList, name, kind] := by
    have hblank : "TYPE".toList.all (fun c => !isBlank c) = true := by decide
    have hkeyword := @words_cons "TYPE".toList (by decide) (by simpa using hblank)
      (name ++ ' ' :: kind)
    rw [words_cons hne hchars, words_token htoken.1 htoken.2.1] at hkeyword
    rw [← hkeyword]
    exact words_blank _
  have hline : readLine (typeLine name kind) =
      readComment (words (" TYPE ".toList ++ (name ++ ' ' :: kind))) := rfl
  rw [hline, hwords]
  simp [readComment, hname, htoken.2.2]

def labelText (labels : Labels) : List Char :=
  if labels = [] then [] else '{' :: (printLabels labels ++ ['}'])

def sampleLine (name : List Char) (labels : Labels) (value : List Char) : List Char :=
  name ++ (labelText labels ++ ' ' :: value)

theorem isBlank_of_isNumberChar {c : Char} (h : isNumberChar c = true) :
    isBlank c = false ∧ c ≠ '{' ∧ c ≠ '\n' :=
  ⟨isBlank_eq_false h (by decide) (by decide), char_ne h (by decide), char_ne h (by decide)⟩

theorem readValue_token {token : List Char} {number : Number} (h : IsValue token number) :
    readValue (words (' ' :: token)) = some (number, none) := by
  rw [words_blank, words_token h.nonempty fun c hc => (isBlank_of_isNumberChar (h.chars c hc)).1,
    readValue, h.reads]
  rfl

theorem readLabelBlock_value {token : List Char} {number : Number} (h : IsValue token number) :
    readLabelBlock (' ' :: token) = some ([], token) := by
  obtain ⟨c, rest, rfl⟩ := List.exists_cons_of_ne_nil h.nonempty
  obtain ⟨hblank, hbrace, -⟩ := isBlank_of_isNumberChar (h.chars c List.mem_cons_self)
  have hskip : skipBlanks (' ' :: c :: rest) = c :: rest := by
    rw [skipBlanks, List.dropWhile_cons_of_pos (by decide)]
    exact skipBlanks_cons hblank
  rw [readLabelBlock, hskip]
  split
  · next hopen => exact absurd (List.cons.inj hopen).1 hbrace
  · rfl

theorem readLabelBlock_print {labels : Labels} (hne : labels ≠ [])
    (hnames : ∀ label ∈ labels, isLabelName label.1 = true) (rest : List Char) :
    readLabelBlock ('{' :: (printLabels labels ++ '}' :: rest)) = some (labels, rest) := by
  have hskip : skipBlanks ('{' :: (printLabels labels ++ '}' :: rest)) =
      '{' :: (printLabels labels ++ '}' :: rest) := skipBlanks_cons (by decide)
  have hlength : labels.length ≤ (printLabels labels ++ '}' :: rest).length + 1 := by
    rw [List.length_append]
    have := length_le_length_printLabels labels
    omega
  rw [readLabelBlock, hskip]
  exact readLabels_print hne hnames rest hlength

theorem readLabelBlock_labelText {labels : Labels} {token : List Char} {number : Number}
    (hnames : ∀ label ∈ labels, isLabelName label.1 = true) (hvalue : IsValue token number) :
    ∃ rest, readLabelBlock (labelText labels ++ ' ' :: token) = some (labels, rest) ∧
      readValue (words rest) = some (number, none) := by
  by_cases hempty : labels = []
  · subst hempty
    refine ⟨token, readLabelBlock_value hvalue, ?_⟩
    rw [← words_blank]
    exact readValue_token hvalue
  · have htext : labelText labels ++ ' ' :: token =
        '{' :: (printLabels labels ++ '}' :: ' ' :: token) := by
      simp [labelText, hempty]
    rw [htext]
    exact ⟨' ' :: token, readLabelBlock_print hempty hnames _, readValue_token hvalue⟩

theorem readSample_sampleLine {name : List Char} {labels : Labels} {token : List Char}
    {number : Number} (hname : isMetricName name = true)
    (hlabels : ∀ label ∈ labels, isLabelName label.1 = true) (hvalue : IsValue token number) :
    readSample (sampleLine name labels token) = some ⟨name, labels, number, none⟩ := by
  have hread : readName isMetricStart isMetricChar (sampleLine name labels token) =
      some (name, labelText labels ++ ' ' :: token) := by
    refine readName_append hname fun d hd => ?_
    unfold labelText at hd
    split at hd
    · obtain rfl := Option.some.inj hd
      decide
    · obtain rfl := Option.some.inj hd
      decide
  obtain ⟨rest, hblock, hrest⟩ := readLabelBlock_labelText hlabels hvalue
  rw [readSample, hread, Option.bind_some]
  dsimp only
  rw [hblock, Option.bind_some]
  dsimp only
  rw [hrest]
  rfl

theorem readLine_sampleLine {name : List Char} {labels : Labels} {token : List Char}
    {number : Number} (hname : isMetricName name = true)
    (hlabels : ∀ label ∈ labels, isLabelName label.1 = true) (hvalue : IsValue token number) :
    readLine (sampleLine name labels token) = some (.sample ⟨name, labels, number, none⟩) := by
  obtain ⟨c, rest, rfl, hc⟩ := exists_cons_of_isName hname
  have hchar := isBlank_of_isMetricChar (isMetricChar_of_isMetricStart hc)
  have hskip : skipBlanks (sampleLine (c :: rest) labels token) =
      c :: (rest ++ (labelText labels ++ ' ' :: token)) := skipBlanks_cons hchar.1
  have hsample := readSample_sampleLine hname hlabels hvalue
  unfold readLine
  rw [hskip]
  split
  · next h => cases h
  · next h => exact absurd (List.cons.inj h).1 hchar.2.2
  · rw [← List.cons_append]
    exact congrArg (Option.map Line.sample) hsample

/-! Lines without line breaks -/

theorem newline_not_mem_name {start char : Char → Bool} {name : List Char}
    (hname : isName start char name = true) (hchar : ∀ c, char c = true → isMetricChar c = true) :
    '\n' ∉ name := fun hmem =>
  (isBlank_of_isMetricChar (hchar _
    (List.all_eq_true.mp (Bool.and_eq_true_iff.mp hname).2 _ hmem))).2.1 rfl

theorem newline_not_mem_metricName {name : List Char} (hname : isMetricName name = true) :
    '\n' ∉ name :=
  @newline_not_mem_name isMetricStart isMetricChar name hname fun _ hc => hc

theorem newline_not_mem_escaped (c : Char) : '\n' ∉ escaped c := by
  unfold escaped
  split
  · decide
  · split
    · decide
    · next hnewline =>
      split
      · decide
      · exact fun hmem => hnewline (List.mem_singleton.mp hmem).symm

theorem newline_not_mem_printLabels {labels : Labels}
    (hnames : ∀ label ∈ labels, isLabelName label.1 = true) : '\n' ∉ printLabels labels := by
  have hlabel : ∀ label ∈ labels, '\n' ∉ printLabel label := by
    intro label hmem
    have hname : '\n' ∉ label.1 :=
      newline_not_mem_name (hnames label hmem) fun _ => isMetricChar_of_isLabelChar
    simp [printLabel, hname, newline_not_mem_escaped]
  clear hnames
  induction labels with
  | nil => exact List.not_mem_nil
  | cons label labels ih =>
    obtain ⟨hfirst, hrest⟩ := List.forall_mem_cons.mp hlabel
    cases labels with
    | nil => simpa [printLabels] using hfirst
    | cons next labels =>
      rw [printLabels_cons_cons, List.mem_append, List.mem_cons]
      rintro (hmem | hcomma | hmem)
      · exact hfirst hmem
      · exact absurd hcomma (by decide)
      · exact ih hrest hmem

theorem newline_not_mem_typeLine {name kind : List Char} (hname : isMetricName name = true)
    (hkind : '\n' ∉ kind) : '\n' ∉ typeLine name kind := by
  have hkeyword : '\n' ∉ "# TYPE ".toList := by decide
  unfold typeLine
  simp only [List.mem_append, List.mem_cons, not_or]
  exact ⟨hkeyword, newline_not_mem_metricName hname, by decide, hkind⟩

theorem newline_not_mem_sampleLine {name : List Char} {labels : Labels} {token : List Char}
    {number : Number} (hname : isMetricName name = true)
    (hlabels : ∀ label ∈ labels, isLabelName label.1 = true) (hvalue : IsValue token number) :
    '\n' ∉ sampleLine name labels token := by
  have hlast : '\n' ∉ token := fun hmem => (isBlank_of_isNumberChar (hvalue.chars _ hmem)).2.2 rfl
  have hmiddle : '\n' ∉ labelText labels := by
    unfold labelText
    split
    · exact List.not_mem_nil
    · simp [newline_not_mem_printLabels hlabels]
  simp [sampleLine, newline_not_mem_metricName hname, hmiddle, hlast]

/-! Texts that come back -/

theorem parse_intercalate {lines : List (List Char)} (h : ∀ line ∈ lines, '\n' ∉ line) :
    parse (['\n'].intercalate (lines ++ [[]])) = readLines lines := by
  have hlines : ∀ line ∈ lines ++ [[]], '\n' ∉ line := fun line hline =>
    (List.mem_append.mp hline).elim (h line) fun hlast => by
      rw [List.mem_singleton.mp hlast]
      exact List.not_mem_nil
  have hne : lines ++ [[]] ≠ [] := List.append_ne_nil_of_right_ne_nil lines (by simp)
  have hsplit := List.splitOn_intercalate '\n' hlines hne
  rw [parse, hsplit, if_pos List.getLast?_concat, List.dropLast_concat]

theorem readLines_append {lines more : List (List Char)} {read : List Line} {doc : Exposition}
    (hlines : readLines lines = some doc) (hmore : more.mapM readLine = some read) :
    readLines (lines ++ more) = read.foldlM Exposition.add doc := by
  obtain ⟨before, hbefore, hdoc⟩ := Option.bind_eq_some_iff.mp hlines
  rw [readLines, List.mapM_append, hbefore, hmore]
  simp [List.foldlM_append, hdoc]

structure Exposition.Fresh (doc : Exposition) (name : List Char) : Prop where
  type : name ∉ doc.types.map Prod.fst
  sample : name ∉ doc.samples.map fun sample => sample.2.name
  group : name ∉ doc.groups

/-- After `doc₀` samples of one type have been read, metric by metric. -/
structure Exposition.Extends (doc₀ doc : Exposition) (kind : MetricType) (samples : List Sample) :
    Prop where
  nodup : (doc.types.map Prod.fst).Nodup
  mem_types : ∀ entry, entry ∈ doc.types ↔
    entry ∈ doc₀.types ∨ ∃ sample ∈ samples, entry = (sample.name, kind)
  samples_eq : doc.samples = doc₀.samples ++ samples.map (kind, ·)
  mem_groups : ∀ name, name ∈ doc.groups ↔ name ∈ doc₀.groups ∨ name ∈ samples.map Sample.name
  last : ∀ sample, samples.getLast? = some sample → doc.groups.head? = some sample.name

def sampleLines (kind : MetricType) (samples : List Sample) (sample : Sample) : List Line :=
  (if (samples.map Sample.name).contains sample.name then [] else [.type sample.name kind]) ++
    [.sample sample]

namespace Exposition

theorem typeOf_of_mem {doc : Exposition} {name : List Char} {kind : MetricType}
    (hnodup : (doc.types.map Prod.fst).Nodup) (hmem : (name, kind) ∈ doc.types) :
    doc.typeOf name = kind := by
  obtain ⟨before, after, htypes⟩ := List.append_of_mem hmem
  have hlookup : doc.types.lookup name = some kind := by
    refine List.lookup_eq_some_iff.mpr ⟨before, after, htypes, fun entry hentry => ?_⟩
    rw [htypes, List.map_append, List.map_cons] at hnodup
    have hdisjoint := (List.nodup_append.mp hnodup).2.2
    exact bne_iff_ne.mpr fun hname => hdisjoint entry.1 (List.mem_map_of_mem hentry) name
      List.mem_cons_self hname.symm
  rw [typeOf, hlookup, Option.getD_some]

theorem foldlM_add_metric (name : List Char) (kind : MetricType) (value : Number) :
    [Line.help name, .type name kind, .sample ⟨name, [], value, none⟩].foldlM add empty =
      some ⟨[(name, kind)], [(kind, ⟨name, [], value, none⟩)], [name], [name]⟩ := by
  simp [add, enter, empty, typeOf]

variable {doc₀ doc : Exposition} {kind : MetricType} {samples : List Sample} {sample : Sample}

theorem add_sample (hlabels : (sample.labels.map Prod.fst).Nodup)
    (hother : ∀ other ∈ doc.samples,
      ¬(other.2.name = sample.name ∧ other.2.labels.Perm sample.labels))
    (hhead : doc.groups.head? = some sample.name) (htype : doc.typeOf sample.name = kind) :
    doc.add (.sample sample) = some { doc with samples := doc.samples ++ [(kind, sample)] } := by
  rw [add, if_pos ⟨hlabels, hother⟩, enter, if_pos hhead, Option.map_some, htype]

theorem Extends.refl (h : (doc.types.map Prod.fst).Nodup) : doc.Extends doc kind [] where
  nodup := h
  mem_types entry := by simp
  samples_eq := by simp
  mem_groups name := by simp
  last sample hlast := by cases hlast

theorem Extends.new_labels (h : doc₀.Extends doc kind samples) (hfresh : doc₀.Fresh sample.name)
    (hother : ∀ other ∈ samples, ¬(other.name = sample.name ∧ other.labels.Perm sample.labels)) :
    ∀ other ∈ doc.samples, ¬(other.2.name = sample.name ∧ other.2.labels.Perm sample.labels) := by
  intro other hmem
  rw [h.samples_eq, List.mem_append] at hmem
  rcases hmem with hbefore | hmem
  · exact fun hsame => hfresh.sample (hsame.1 ▸ List.mem_map_of_mem hbefore)
  · obtain ⟨given, hgiven, rfl⟩ := List.mem_map.mp hmem
    exact hother given hgiven

theorem Extends.samples_append (h : doc₀.Extends doc kind samples) :
    doc.samples ++ [(kind, sample)] = doc₀.samples ++ (samples ++ [sample]).map (kind, ·) := by
  rw [h.samples_eq, List.append_assoc, List.map_append]
  rfl

theorem Extends.step_known (h : doc₀.Extends doc kind samples) (hfresh : doc₀.Fresh sample.name)
    (hlabels : (sample.labels.map Prod.fst).Nodup)
    (hother : ∀ other ∈ samples, ¬(other.name = sample.name ∧ other.labels.Perm sample.labels))
    {last : Sample} (hlast : samples.getLast? = some last) (hname : last.name = sample.name) :
    ∃ doc', [Line.sample sample].foldlM add doc = some doc' ∧
      doc₀.Extends doc' kind (samples ++ [sample]) := by
  have hmem := List.mem_of_getLast? hlast
  have hhead : doc.groups.head? = some sample.name := hname ▸ h.last last hlast
  have hdeclared : (sample.name, kind) ∈ doc.types :=
    (h.mem_types _).mpr (.inr ⟨last, hmem, by rw [hname]⟩)
  have hadd := add_sample hlabels (h.new_labels hfresh hother) hhead
    (typeOf_of_mem h.nodup hdeclared)
  refine ⟨_, by rw [List.foldlM_cons, hadd]; rfl, ?_⟩
  refine ⟨h.nodup, fun entry => ?_, h.samples_append, fun name => ?_, fun final hfinal => ?_⟩
  · rw [h.mem_types]
    refine or_congr_right ⟨fun ⟨s, hs, heq⟩ => ⟨s, List.mem_append_left _ hs, heq⟩, ?_⟩
    rintro ⟨s, hs, rfl⟩
    rcases List.mem_append.mp hs with hs | hs
    · exact ⟨s, hs, rfl⟩
    · exact ⟨last, hmem, by rw [List.mem_singleton.mp hs, hname]⟩
  · rw [h.mem_groups, List.map_append, List.mem_append]
    refine or_congr_right ⟨.inl, fun hmap => hmap.elim id fun hsame => ?_⟩
    rw [List.mem_singleton.mp hsame, ← hname]
    exact List.mem_map_of_mem hmem
  · rw [List.getLast?_concat] at hfinal
    obtain rfl := Option.some.inj hfinal
    exact hhead

theorem Fresh.add_type {name : List Char} (h : doc.Fresh name) : doc.add (.type name kind) =
    some { doc with types := doc.types ++ [(name, kind)], groups := name :: doc.groups } := by
  have hfirst : ¬((doc.types.map Prod.fst).contains name ||
      (doc.samples.map fun sample => sample.2.name).contains name) = true := by
    rw [Bool.or_eq_true, List.contains_iff_mem, List.contains_iff_mem]
    exact not_or.mpr ⟨h.type, h.sample⟩
  have hhead : doc.groups.head? ≠ some name := fun hhead => h.group (List.mem_of_head? hhead)
  rw [add, if_neg hfirst, enter, if_neg hhead, if_neg (mt List.contains_iff_mem.mp h.group)]
  rfl

theorem Extends.fresh {name : List Char} (h : doc₀.Extends doc kind samples)
    (hfresh : doc₀.Fresh name) (hnew : name ∉ samples.map Sample.name) : doc.Fresh name where
  type hmem := by
    obtain ⟨entry, hentry, hname⟩ := List.mem_map.mp hmem
    rcases (h.mem_types entry).mp hentry with hbefore | ⟨s, hs, rfl⟩
    · exact hfresh.type (hname ▸ List.mem_map_of_mem hbefore)
    · exact hnew (hname ▸ List.mem_map_of_mem hs)
  sample hmem := by
    rw [h.samples_eq, List.map_append, List.mem_append, List.map_map] at hmem
    exact hmem.elim hfresh.sample hnew
  group hmem := ((h.mem_groups name).mp hmem).elim hfresh.group hnew

theorem Extends.step_new (h : doc₀.Extends doc kind samples) (hfresh : doc₀.Fresh sample.name)
    (hlabels : (sample.labels.map Prod.fst).Nodup)
    (hother : ∀ other ∈ samples, ¬(other.name = sample.name ∧ other.labels.Perm sample.labels))
    (hnew : sample.name ∉ samples.map Sample.name) :
    ∃ doc', [Line.type sample.name kind, .sample sample].foldlM add doc = some doc' ∧
      doc₀.Extends doc' kind (samples ++ [sample]) := by
  have hunknown := h.fresh hfresh hnew
  have hnodup : ((doc.types ++ [(sample.name, kind)]).map Prod.fst).Nodup := by
    rw [List.map_append, List.map_singleton, ← List.concat_eq_append]
    exact List.Nodup.concat hunknown.type h.nodup
  let declared := { doc with
    types := doc.types ++ [(sample.name, kind)], groups := sample.name :: doc.groups }
  have hdeclare : doc.add (.type sample.name kind) = some declared := hunknown.add_type
  have htype : declared.typeOf sample.name = kind :=
    typeOf_of_mem hnodup (List.mem_append_right _ List.mem_cons_self)
  have hadd : declared.add (.sample sample) =
      some { declared with samples := doc.samples ++ [(kind, sample)] } :=
    add_sample hlabels (h.new_labels hfresh hother) rfl htype
  refine ⟨_, by
    rw [List.foldlM_cons, hdeclare, Option.bind_eq_bind, Option.bind_some, List.foldlM_cons, hadd]
    rfl, ?_⟩
  refine ⟨hnodup, fun entry => ?_, h.samples_append, fun name => ?_, fun final hfinal => ?_⟩
  · rw [List.mem_append, h.mem_types, List.mem_singleton, or_assoc]
    refine or_congr_right ⟨?_, ?_⟩
    · rintro (⟨s, hs, rfl⟩ | rfl)
      · exact ⟨s, List.mem_append_left _ hs, rfl⟩
      · exact ⟨sample, List.mem_append_right _ List.mem_cons_self, rfl⟩
    · rintro ⟨s, hs, rfl⟩
      rcases List.mem_append.mp hs with hs | hs
      · exact .inl ⟨s, hs, rfl⟩
      · exact .inr (by rw [List.mem_singleton.mp hs])
  · rw [List.mem_cons, h.mem_groups, List.map_append, List.mem_append, or_left_comm]
    refine or_congr_right ?_
    rw [or_comm]
    exact or_congr_right List.mem_singleton.symm
  · rw [List.getLast?_concat] at hfinal
    obtain rfl := Option.some.inj hfinal
    rfl

theorem Extends.step (h : doc₀.Extends doc kind samples) (hfresh : doc₀.Fresh sample.name)
    (hlabels : (sample.labels.map Prod.fst).Nodup)
    (hother : ∀ other ∈ samples, ¬(other.name = sample.name ∧ other.labels.Perm sample.labels))
    (hnext : sample.name ∈ samples.map Sample.name →
      ∃ last, samples.getLast? = some last ∧ last.name = sample.name) :
    ∃ doc', (sampleLines kind samples sample).foldlM add doc = some doc' ∧
      doc₀.Extends doc' kind (samples ++ [sample]) := by
  by_cases hknown : sample.name ∈ samples.map Sample.name
  · obtain ⟨last, hlast, hname⟩ := hnext hknown
    rw [sampleLines, if_pos (List.contains_iff_mem.mpr hknown), List.nil_append]
    exact h.step_known hfresh hlabels hother hlast hname
  · rw [sampleLines, if_neg (mt List.contains_iff_mem.mp hknown), List.singleton_append]
    exact h.step_new hfresh hlabels hother hknown

end Exposition

end Aetus.Base.Prometheus
