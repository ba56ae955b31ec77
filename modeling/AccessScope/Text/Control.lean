/-!
# Control characters

A terminal shows no control characters, and takes the sequences that begin with an escape character
for commands: escape sequences, control sequences and control strings. A text that is quoted on a
terminal is written without either.

White space in an escape or control sequence suspends it. What follows is shown, up to the next
control character, where the sequence goes on; if a character beyond ASCII was shown in between, the
sequence is forgotten.

* `visible`  the characters of a text that are shown
* `isShown_of_mem_visible`  no control character is left in them
* `visible_eq_self`  a text without control characters is shown whole
-/

namespace AccessScope.Text

/-- Is the character one that lays out a text: a tab, or the end of a line or of a page? -/
def isLayout (c : Char) : Bool :=
  c = '\t' || c = '\n' || c = '\x0c' || c = '\r'

/-- Is the character shown where it stands outside of a sequence? -/
def isShown (c : Char) : Bool :=
  isLayout c || (0x20 ≤ c.toNat && c.toNat ≠ 0x7F)

/-- Is the byte of the string terminator among the bytes of the character in UTF-8? Control strings
are looked at byte by byte, so such a character ends them. -/
def holdsTerminator (c : Char) : Bool :=
  (String.utf8EncodeChar c).contains 0x9C

/-- Where a text stands with regard to the sequences that a terminal takes for commands. -/
inductive ControlState where
  /-- Outside of any sequence. -/
  | outside
  /-- Behind the escape character that begins a sequence. -/
  | escape
  /-- In an escape sequence of more than one character. -/
  | intermediate
  /-- In a control sequence. -/
  | controlSequence
  /-- At the beginning of a device control string. -/
  | deviceEntry
  /-- In the parameters of a device control string. -/
  | deviceParameters
  /-- Between the parameters of a device control string and its data. -/
  | deviceIntermediate
  /-- In the data of a device control string, or in a string that the terminal passes over. -/
  | controlString
  /-- In a command for the operating system. -/
  | systemCommand
deriving DecidableEq, Repr

/-- Does white space suspend the sequence? In a string it is part of the string. -/
def ControlState.isSuspendable : ControlState → Bool
  | escape | intermediate | controlSequence => true
  | outside | deviceEntry | deviceParameters | deviceIntermediate | controlString
  | systemCommand => false

/-- The state behind a character that is not shown. -/
def ControlState.advance (s : ControlState) (c : Char) : ControlState :=
  let n := c.toNat
  if c = '\x1b' then escape
  -- two control characters give a sequence up
  else if c = '\x18' || c = '\x1a' then outside
  else match s with
    | outside => outside
    | escape =>
      if c = '[' then controlSequence
      else if c = ']' then systemCommand
      else if c = 'P' then deviceEntry
      else if c = 'X' || c = '^' || c = '_' then controlString
      else if 0x20 ≤ n && n ≤ 0x2F then intermediate
      else if 0x30 ≤ n && n ≤ 0x7E then outside
      else escape
    | intermediate => if 0x30 ≤ n && n ≤ 0x7E then outside else intermediate
    | controlSequence => if 0x40 ≤ n && n ≤ 0x7E then outside else controlSequence
    | deviceEntry =>
      if 0x20 ≤ n && n ≤ 0x2F then deviceIntermediate
      else if 0x30 ≤ n && n ≤ 0x3F then deviceParameters
      else if 0x40 ≤ n && n ≤ 0x7E then controlString
      else deviceEntry
    | deviceParameters =>
      if 0x20 ≤ n && n ≤ 0x2F then deviceIntermediate
      else if 0x3C ≤ n && n ≤ 0x7E then controlString
      else deviceParameters
    | deviceIntermediate =>
      if 0x30 ≤ n && n ≤ 0x7E then controlString else deviceIntermediate
    | controlString => if holdsTerminator c then outside else controlString
    | systemCommand => if c = '\x07' then outside else systemCommand

/-- The characters of a text that are shown, the text beginning in state `s`, where `suspended` says
whether white space has suspended the sequence. -/
def visibleFrom (s : ControlState) (suspended : Bool) : List Char → List Char
  | [] => []
  | c :: rest =>
    if (suspended || s = .outside) && isShown c then
      c :: visibleFrom (if c.toNat < 0x80 then s else .outside) suspended rest
    else if s.isSuspendable && isLayout c then c :: visibleFrom s true rest
    else visibleFrom (s.advance c) false rest

/-- The characters of a text that are shown. -/
def visible (s : List Char) : List Char :=
  visibleFrom .outside false s

private theorem isShown_of_mem_visibleFrom {s : ControlState} {suspended : Bool} {l : List Char}
    {c : Char} (h : c ∈ visibleFrom s suspended l) : isShown c := by
  induction l generalizing s suspended with
  | nil => simp [visibleFrom] at h
  | cons d l ih =>
    rw [visibleFrom] at h
    split at h
    · rename_i hd
      rcases List.mem_cons.1 h with rfl | h
      · exact (Bool.and_eq_true_iff.1 hd).2
      · exact ih h
    · split at h
      · rename_i hd
        rcases List.mem_cons.1 h with rfl | h
        · simp [isShown, (Bool.and_eq_true_iff.1 hd).2]
        · exact ih h
      · exact ih h

/-- No control character is left among the characters that are shown. -/
theorem isShown_of_mem_visible {s : List Char} {c : Char} (h : c ∈ visible s) : isShown c :=
  isShown_of_mem_visibleFrom h

/-- A text without control characters is shown whole. -/
theorem visible_eq_self {s : List Char} (h : ∀ c ∈ s, isShown c) : visible s = s := by
  induction s with
  | nil => rfl
  | cons c s ih =>
    have hc : isShown c := h c List.mem_cons_self
    have hs : visibleFrom .outside false s = s := ih fun d hd => h d (List.mem_cons_of_mem c hd)
    simp [visible, visibleFrom, hc, hs]

end AccessScope.Text
