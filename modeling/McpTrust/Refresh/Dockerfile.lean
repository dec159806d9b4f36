import McpTrust.Failure
import McpTrust.Refresh.Overrides
import McpTrust.Refresh.Policy
import McpTrust.Release.Routes

/-! # Two readings of a Dockerfile

`repository_dockerfile` reads a file one line at a time. Docker first joins a line
that ends in a backslash to the next, and pulls what a mount names as well.
-/

namespace McpTrust.Refresh

set_option autoImplicit false

open Python
open Failure (bind_ok)

/-! ## Words -/

/-- The words of a text behind the part `word` of one, in reverse. -/
def wordsFrom (isSeparator : CodePoint → Bool) (word : Str) : Str → List Str
  | [] => if word = [] then [] else [word.reverse]
  | c :: rest =>
    if isSeparator c then
      if word = [] then wordsFrom isSeparator [] rest else word.reverse :: wordsFrom isSeparator [] rest
    else wordsFrom isSeparator (c :: word) rest

/-- `text.split()`, with the code points that separate words given. -/
def wordsBy (isSeparator : CodePoint → Bool) (text : Str) : List Str := wordsFrom isSeparator [] text

section Words

variable {isSeparator : CodePoint → Bool}

theorem wordsBy_congr {other : CodePoint → Bool} {text : Str} (h : ∀ c ∈ text, isSeparator c = other c) :
    wordsBy isSeparator text = wordsBy other text := by
  suffices ∀ word, wordsFrom isSeparator word text = wordsFrom other word text from this []
  induction text with
  | nil => exact fun _ => rfl
  | cons c rest ih =>
    intro word
    have hrest := ih fun d hd => h d (List.mem_cons_of_mem _ hd)
    simp only [wordsFrom, h c List.mem_cons_self, hrest]

theorem wordsBy_dropWhile {blank : CodePoint → Bool} (h : ∀ c, blank c = true → isSeparator c = true)
    (text : Str) : wordsBy isSeparator (text.dropWhile blank) = wordsBy isSeparator text := by
  induction text with
  | nil => rfl
  | cons c rest ih =>
    rw [List.dropWhile_cons]
    split
    · next hblank =>
      rw [ih]
      simp [wordsBy, wordsFrom, h c hblank]
    · rfl

theorem wordsFrom_append_separators {trailing : Str} (h : ∀ c ∈ trailing, isSeparator c = true)
    (text word : Str) : wordsFrom isSeparator word (text ++ trailing) = wordsFrom isSeparator word text := by
  induction text generalizing word with
  | nil =>
    rw [List.nil_append]
    induction trailing generalizing word with
    | nil => rfl
    | cons c rest ih =>
      have hrest := ih (fun d hd => h d (List.mem_cons_of_mem _ hd)) []
      simp only [wordsFrom, h c List.mem_cons_self, if_true, hrest]
  | cons c rest ih => simp only [List.cons_append, wordsFrom, ih]

theorem wordsBy_strip (text : Str) : wordsBy isWhite (strip text) = wordsBy isWhite text := by
  have hparts : lstrip text = strip text ++ ((lstrip text).reverse.takeWhile isWhite).reverse := by
    rw [strip, ← List.reverse_append]
    exact (List.reverse_eq_iff.mpr List.takeWhile_append_dropWhile).symm
  have htrailing : ∀ c ∈ ((lstrip text).reverse.takeWhile isWhite).reverse, isWhite c = true := fun c hc =>
    List.mem_takeWhile_imp (List.mem_reverse.mp hc)
  calc wordsBy isWhite (strip text)
      = wordsBy isWhite (lstrip text) := by
        conv_rhs => rw [hparts]
        exact (wordsFrom_append_separators htrailing _ _).symm
    _ = wordsBy isWhite text := wordsBy_dropWhile (fun _ h => h) text

/-- The first word begins as its text does. -/
theorem wordsFrom_begins {word : Str} (h : word ≠ []) (text : Str) :
    ∃ more others, wordsFrom isSeparator word text = (word.reverse ++ more) :: others := by
  induction text generalizing word with
  | nil => exact ⟨[], [], by simp [wordsFrom, h]⟩
  | cons c rest ih =>
    cases hc : isSeparator c with
    | true => exact ⟨[], wordsFrom isSeparator [] rest, by simp [wordsFrom, hc, h]⟩
    | false =>
      obtain ⟨more, others, heq⟩ := ih (List.cons_ne_nil c word)
      exact ⟨c :: more, others, by simp [wordsFrom, hc, heq]⟩

theorem wordsBy_eq_nil {text : Str} (h : ∀ c ∈ text, isSeparator c = true) : wordsBy isSeparator text = [] :=
  wordsFrom_append_separators h [] []

end Words

theorem upper_inRange (c : CodePoint) : c.val - 32 < 0x110000 := (Nat.sub_le c.val 32).trans_lt c.isLt

/-- `str.upper`. Besides `a`-`z` only the long s and the dotless i have an ASCII upper case of one
letter; a word of two from a ligature is none of those compared here. -/
def upperPoint (c : CodePoint) : CodePoint :=
  if isLowerAlpha c then ⟨c.val - 32, upper_inRange c⟩
  else if c.val = 0x17F then ch 'S' else if c.val = 0x131 then ch 'I' else c

def upper (s : Str) : Str := s.map upperPoint

/-- The instruction a list of words gives. -/
def keywordOf : List Str → Str
  | [] => []
  | word :: _ => upper word

/-! ## The line reader -/

/-- `_COMPONENT`. -/
def isComponent : Str → Bool
  | [] => false
  | c :: rest =>
    (isLowerAlpha c || isDigit c) && decide (rest.length ≤ 127) &&
      rest.all fun d => isLowerAlpha d || isDigit d || decide (d ∈ u "._-")

/-- `_DIGEST_IMAGE`, with what its group holds. -/
def digestName (image : Str) : Option Str :=
  let name := image.takeWhile fun c => decide (c ≠ ch '@')
  let digest := image.drop name.length
  if name ≠ [] ∧ (name.all fun c => !isWhite c) = true ∧ digest.take 8 = u "@sha256:" ∧
      (digest.drop 8).length = 64 ∧ (digest.drop 8).all isHexLower = true then some name
  else none

def IsDigestImage (image : Str) : Prop := (digestName image).isSome = true

instance (image : Str) : Decidable (IsDigestImage image) := inferInstanceAs (Decidable (_ = _))

def immutableImage (repositories : List Str) : Json → Except PyErr Str
  | .str value => do
    insist ((digestName value).any fun name => decide (name ∈ repositories))
      "base image is not an approved immutable reference"
    return value
  | _ => .error (boundaryError "base image is not immutable")

/-- The `stages` and `external` of the loop. -/
structure Bases where
  stages : List Str
  external : List Str

def fromFlag : Str := u "--from="

/-- The `COPY` branch, on the tokens behind the instruction. -/
def readCopy (b : Bases) (tokens : List Str) : Except PyErr Bases := do
  insist (tokens.all fun token => !fromFlag.isPrefixOf token || decide (token.drop fromFlag.length ∈ b.stages))
    "Dockerfile COPY uses an external image source"
  return b

def readSource (b : Bases) (source : Str) : Except PyErr Bases :=
  if source ∈ b.stages then .ok b
  else do
    insist (decide (IsDigestImage source)) "Dockerfile uses a mutable external image"
    return { b with external := b.external.insert source }

def addStage (b : Bases) (name : Str) : Except PyErr Bases := do
  insist (isComponent name && decide (name ∉ b.stages)) "Dockerfile stage name is invalid"
  return { b with stages := name :: b.stages }

/-- The `FROM` branch, on the tokens behind the instruction. -/
def readFrom (b : Bases) : List Str → Except PyErr Bases
  | [source] => readSource b source
  | [source, as, name] => do
    insist (decide (upper as = u "AS")) "Dockerfile FROM instruction is invalid"
    addStage (← readSource b source) name
  | _ => .error (boundaryError "Dockerfile FROM instruction is invalid")

def readTokens (b : Bases) : List Str → Except PyErr Bases
  | [] => .ok b
  | keyword :: tokens =>
    if upper keyword = u "COPY" then readCopy b tokens
    else if upper keyword ≠ u "FROM" then .ok b
    else readFrom b tokens

def readLine (b : Bases) (raw : Str) : Except PyErr Bases := readTokens b (wordsBy isWhite (strip raw))

def readLines (b : Bases) (lines : List Str) : Except PyErr Bases := lines.foldlM readLine b

/-- `repository_dockerfile(repo_root, value, expected_external_images=expected)`, with
`repository_file` and the content of a path given. The newline translation of `read_text`
changes no line of `str.splitlines`. -/
def repositoryDockerfile (repositoryFile : Json → Except PyErr Str) (file : Str → Option Bytes)
    (value : Json) (expected : Option (List Str)) : Except PyErr Str := do
  let relative ← repositoryFile value
  match readText (file relative) with
  | .error _ => .error (boundaryError "Dockerfile is unreadable")
  | .ok text => do
    let b ← readLines ⟨[], []⟩ (splitLines text)
    insist (decide (b.external ≠ [])) "Dockerfile has no immutable external image"
    insist (expected.all fun images => sameSet b.external images)
      "Dockerfile base images do not match the descriptor"
    return relative

/-! ## Docker's reading -/

/-- What separates words within a line. -/
def isBlank (c : CodePoint) : Bool := decide (c.val ∈ [9, 11, 12, 13, 32])

/-- A newline ends a line, with the carriage return before it. -/
def dockerLinesFrom (line : Str) : Str → List Str
  | [] => if line = [] then [] else [withoutReturn line]
  | c :: rest => if c.val = 10 then withoutReturn line :: dockerLinesFrom [] rest else dockerLinesFrom (c :: line) rest
where
  withoutReturn (line : Str) : Str := (if line.head?.any (fun c => decide (c.val = 13)) then line.tail else line).reverse

/-- A byte order mark is no part of the first line. -/
def dockerLines (text : Str) : List Str :=
  dockerLinesFrom [] (if text.head?.any (fun c => decide (c.val = 0xFEFF)) then text.tail else text)

/-- What a line holds up to the blanks at its end, in reverse. -/
def reversedLine (line : Str) : Str := line.reverse.dropWhile fun c => decide (c.val ∈ [9, 32])

def continues (line : Str) : Bool := decide ((reversedLine line).head? = some (ch '\\'))

/-- What a line adds to its instruction. -/
def body (line : Str) : Str := if continues line then (reversedLine line).tail.reverse else line

/-- A comment or an empty line belongs to no instruction, and ends none. -/
def isSkipped (line : Str) : Bool :=
  decide ((line.dropWhile isBlank).head? = some (ch '#')) || line.all isBlank

/-- The lines an instruction is written on. -/
structure Instruction where
  first : Str
  more : List Str
  deriving DecidableEq

def Instruction.extend : Option Instruction → Str → Instruction
  | none, line => ⟨line, []⟩
  | some i, line => ⟨i.first, i.more ++ [line]⟩

/-- The instructions of the lines behind the unfinished one `pending`. -/
def instructionsFrom (pending : Option Instruction) : List Str → List Instruction
  | [] => pending.toList
  | line :: rest =>
    if isSkipped line then instructionsFrom pending rest
    else if continues line then instructionsFrom (some (Instruction.extend pending line)) rest
    else Instruction.extend pending line :: instructionsFrom none rest

def dockerInstructions (text : Str) : List Instruction := instructionsFrom none (dockerLines text)

def isFlag (word : Str) : Bool := (u "--").isPrefixOf word

/-- The images a `--mount=` flag draws from. -/
def mountSources (flag : Str) : List Str :=
  if (u "--mount=").isPrefixOf flag then
    ((fields (ch ',') (flag.drop 8)).filter fun option => (u "from=").isPrefixOf option).map (List.drop 5)
  else []

namespace Instruction

def lines (i : Instruction) : List Str := i.first :: i.more

def words (i : Instruction) : List Str := wordsBy isBlank (i.lines.flatMap body)

def keyword (i : Instruction) : Str := keywordOf i.words

def flags (i : Instruction) : List Str := i.words.tail.takeWhile isFlag

def arguments (i : Instruction) : List Str := i.words.tail.dropWhile isFlag

/-- The images the instruction names. -/
def images (i : Instruction) : List Str :=
  if i.keyword = u "FROM" then i.arguments.take 1
  else if i.keyword = u "COPY" then
    (i.flags.filter fun flag => fromFlag.isPrefixOf flag).map (List.drop fromFlag.length)
  else if i.keyword = u "RUN" then i.flags.flatMap mountSources
  else []

/-- The stage a `FROM` declares. -/
def stage (i : Instruction) : Option Str :=
  if i.keyword = u "FROM" ∧ ((i.arguments[1]?).map upper) = some (u "AS") then i.arguments[2]? else none

end Instruction

/-- A stage declared by one of the instructions before, or a pinned member of `expected`. -/
def IsPinned (expected : List Str) (before : List Instruction) (image : Str) : Prop :=
  image ∈ before.filterMap Instruction.stage ∨ image ∈ expected ∧ IsDigestImage image

instance (expected : List Str) (before : List Instruction) (image : Str) :
    Decidable (IsPinned expected before image) := inferInstanceAs (Decidable (_ ∨ _))

/-- Every image a file names is an earlier stage or pinned, and some `FROM` uses each expected one. -/
structure PullsPinned (expected : List Str) (instructions : List Instruction) : Prop where
  pinned : ∀ before i after, instructions = before ++ i :: after → ∀ image ∈ i.images, IsPinned expected before image
  used : ∀ image ∈ expected, ∃ i ∈ instructions, i.keyword = u "FROM" ∧ image ∈ i.images

/-- The images that the mounts of a `RUN` name. -/
def MountsPinned (expected : List Str) (instructions : List Instruction) : Prop :=
  ∀ before i after, instructions = before ++ i :: after → i.keyword = u "RUN" →
    ∀ image ∈ i.images, IsPinned expected before image

/-- The line reader meets each `FROM`, and each source of a `COPY`, where Docker does. -/
structure Instruction.ReadsAlike (i : Instruction) : Prop where
  fromAlone : i.keyword = u "FROM" ∨ (∃ line ∈ i.lines, keywordOf (wordsBy isWhite line) = u "FROM") →
    i.more = [] ∧ continues i.first = false ∧ (i.first.all fun c => !isWhite c || isBlank c) = true
  copySources : i.keyword = u "COPY" → ∀ flag ∈ i.flags, fromFlag.isPrefixOf flag = true →
    keywordOf (wordsBy isWhite i.first) = u "COPY" ∧ flag ∈ (wordsBy isWhite i.first).tail

instance (i : Instruction) : Decidable i.ReadsAlike :=
  decidable_of_iff (_ ∧ _) ⟨fun h => ⟨h.1, h.2⟩, fun h => ⟨h.fromAlone, h.copySources⟩⟩

/-- Both break the text into the same lines, no expected image looks like a flag, and each
instruction reads alike. -/
structure ReadsAlike (expected : List Str) (text : Str) : Prop where
  lines : splitLines text = dockerLines text
  images : ∀ image ∈ expected, isFlag image = false
  instructions : ∀ i ∈ dockerInstructions text, i.ReadsAlike

/-- A pinned image is no flag where its repository is none. -/
theorem isFlag_digestImage {image name : Str} (h : digestName image = some name) (hname : isFlag name = false) :
    isFlag image = false := by
  have htake : image.takeWhile (fun c => decide (c ≠ ch '@')) = name := by
    rw [digestName] at h
    split at h
    · exact Option.some.inj h
    · cases h
  rw [← htake] at hname
  refine Bool.eq_false_iff.mpr fun hflag => ?_
  obtain ⟨rest, rfl⟩ := List.isPrefixOf_iff_prefix.mp hflag
  have hdashes : ((u "--" ++ rest).takeWhile fun c => decide (c ≠ ch '@')) =
      u "--" ++ rest.takeWhile fun c => decide (c ≠ ch '@') :=
    List.takeWhile_append_of_pos fun c hc => by
      rw [show u "--" = [ch '-', ch '-'] from by decide] at hc
      simp only [List.mem_cons, List.not_mem_nil, or_false, or_self] at hc
      rw [hc]
      decide
  rw [hdashes, isFlag, List.isPrefixOf_iff_prefix.mpr (List.prefix_append _ _)] at hname
  cases hname

/-- The repositories a cohort draws its bases from. -/
def baseRepositories : List Str := [u "node", u "python", u "mcr.microsoft.com/playwright"]

/-- The images of a cohort satisfy `ReadsAlike.images`. -/
theorem immutableImage_notFlag {repositories : List Str} (hrepositories : repositories ⊆ baseRepositories)
    {value : Json} {image : Str} (h : immutableImage repositories value = .ok image) : isFlag image = false := by
  cases value with
  | str text =>
    obtain ⟨_, hname, h⟩ := bind_ok.mp h
    obtain rfl := Except.ok.inj h
    obtain ⟨name, hname, hmem⟩ := (Option.any_eq_true _ _).mp (insist_eq_ok.mp hname)
    have hbase : ∀ name ∈ baseRepositories, isFlag name = false := by decide
    exact isFlag_digestImage hname (hbase name (hrepositories (of_decide_eq_true hmem)))
  | _ => cases h

/-! ## What one instruction does to the line reader -/

theorem isWhite_of_isBlank {c : CodePoint} (h : isBlank c = true) : isWhite c = true := by
  have hval := of_decide_eq_true h
  simp only [List.mem_cons, List.not_mem_nil, or_false] at hval
  simp only [isWhite, Bool.or_eq_true, decide_eq_true_eq]
  omega

theorem readLine_eq (b : Bases) (line : Str) : readLine b line = readTokens b (wordsBy isWhite line) := by
  rw [readLine, wordsBy_strip]

/-- The reader takes no notice of a line that is neither a `COPY` nor a `FROM`. -/
theorem readLine_other {line : Str} (hcopy : keywordOf (wordsBy isWhite line) ≠ u "COPY")
    (hfrom : keywordOf (wordsBy isWhite line) ≠ u "FROM") (b : Bases) : readLine b line = .ok b := by
  rw [readLine_eq]
  cases h : wordsBy isWhite line with
  | nil => rfl
  | cons word tokens =>
    rw [h] at hcopy hfrom
    rw [readTokens, if_neg (show ¬upper word = u "COPY" from hcopy),
      if_pos (show upper word ≠ u "FROM" from hfrom)]

theorem readLine_skipped {line : Str} (h : isSkipped line = true) (b : Bases) : readLine b line = .ok b := by
  rw [isSkipped, Bool.or_eq_true, decide_eq_true_eq] at h
  obtain hcomment | hempty := h
  · obtain ⟨rest, hrest⟩ : ∃ rest, line.dropWhile isBlank = ch '#' :: rest := by
      cases hdrop : line.dropWhile isBlank with
      | nil =>
        rw [hdrop] at hcomment
        cases hcomment
      | cons c rest =>
        rw [hdrop] at hcomment
        exact ⟨rest, by rw [Option.some.inj hcomment]⟩
    have hhash : isWhite (ch '#') = false := by decide
    have hwords : wordsBy isWhite line = wordsFrom isWhite [ch '#'] rest := by
      rw [← wordsBy_dropWhile (fun _ => isWhite_of_isBlank) line, hrest, wordsBy, wordsFrom, hhash]
      rfl
    obtain ⟨more, others, heq⟩ := @wordsFrom_begins isWhite _ (List.cons_ne_nil (ch '#') []) rest
    have hkeyword : keywordOf (wordsBy isWhite line) = ch '#' :: upper more := by
      rw [hwords, heq]
      rfl
    refine readLine_other ?_ ?_ b
    · rw [hkeyword]
      exact fun h => absurd (List.cons.inj h).1 (by decide)
    · rw [hkeyword]
      exact fun h => absurd (List.cons.inj h).1 (by decide)
  · have hnil : wordsBy isWhite line = [] :=
      wordsBy_eq_nil fun c hc => isWhite_of_isBlank (List.all_eq_true.mp hempty c hc)
    rw [readLine_eq, hnil]
    rfl

theorem readLines_kept (b : Bases) (lines : List Str) :
    readLines b lines = readLines b (lines.filter fun line => !isSkipped line) := by
  induction lines generalizing b with
  | nil => rfl
  | cons line rest ih =>
    cases h : isSkipped line with
    | true =>
      rw [List.filter_cons_of_neg (by simp [h]), ← ih b]
      exact congrArg (· >>= fun b => readLines b rest) (readLine_skipped h b)
    | false =>
      rw [List.filter_cons_of_pos (by simp [h])]
      exact bind_congr fun b => ih b

theorem extend_lines (pending : Option Instruction) (line : Str) :
    (Instruction.extend pending line).lines = (pending.toList.flatMap Instruction.lines) ++ [line] := by
  cases pending with
  | none => rfl
  | some i => simp [Instruction.extend, Instruction.lines]

/-- Every line that is not skipped is on one instruction, in order. -/
theorem instructionsFrom_lines (pending : Option Instruction) (lines : List Str) :
    (instructionsFrom pending lines).flatMap Instruction.lines =
      pending.toList.flatMap Instruction.lines ++ lines.filter fun line => !isSkipped line := by
  induction lines generalizing pending with
  | nil => simp [instructionsFrom]
  | cons line rest ih =>
    rw [instructionsFrom]
    split
    · next h => rw [ih, List.filter_cons_of_neg (by simp [h])]
    · next h =>
      rw [List.filter_cons_of_pos (by simp [h])]
      split
      · rw [ih, Option.toList_some, List.flatMap_singleton, extend_lines, List.append_assoc]
        rfl
      · rw [List.flatMap_cons, ih, extend_lines, List.append_assoc]
        rfl

theorem readLines_dockerInstructions {expected : List Str} {text : Str} (h : ReadsAlike expected text) (b : Bases) :
    readLines b (splitLines text) = readLines b ((dockerInstructions text).flatMap Instruction.lines) := by
  rw [h.lines, readLines_kept, dockerInstructions, instructionsFrom_lines]
  rfl

/-- The line reader's sets around one instruction, set beside Docker's reading of it. -/
structure Instruction.Steps (i : Instruction) (b b' : Bases) : Prop where
  images : i.keyword ≠ u "RUN" → ∀ image ∈ i.images, image ∈ b.stages ∨ image ∈ b'.external
  stages : ∀ name ∈ b'.stages, name ∈ b.stages ∨ i.stage = some name ∧ isFlag name = false
  external : ∀ image ∈ b'.external,
    image ∈ b.external ∨ IsDigestImage image ∧ i.keyword = u "FROM" ∧ image ∈ i.images

theorem isFlag_component {name : Str} (h : isComponent name = true) : isFlag name = false := by
  cases name with
  | nil => cases h
  | cons c rest =>
    rw [isComponent, Bool.and_eq_true, Bool.and_eq_true] at h
    have hdash : (isLowerAlpha (ch '-') || isDigit (ch '-')) = false := by decide
    have hne : ch '-' ≠ c := fun heq => by
      rw [heq, h.1.1] at hdash
      cases hdash
    exact Bool.and_eq_false_imp.mpr fun heq => absurd (beq_iff_eq.mp heq) hne

theorem readSource_ok {b b' : Bases} {source : Str} (h : readSource b source = .ok b') :
    b' = b ∧ source ∈ b.stages ∨ b' = { b with external := b.external.insert source } ∧ IsDigestImage source := by
  rw [readSource] at h
  split at h
  · next hmem => exact .inl ⟨(Except.ok.inj h).symm, hmem⟩
  · obtain ⟨_, hdigest, h⟩ := bind_ok.mp h
    exact .inr ⟨(Except.ok.inj h).symm, of_decide_eq_true (insist_eq_ok.mp hdigest)⟩

/-- A `FROM` has a source, and either nothing more or the name of a stage. -/
theorem readFrom_ok {b b' : Bases} {tokens : List Str} (h : readFrom b tokens = .ok b') :
    ∃ source b₁, readSource b source = .ok b₁ ∧ (tokens = [source] ∧ b' = b₁ ∨
      ∃ as name, tokens = [source, as, name] ∧ upper as = u "AS" ∧ isComponent name = true ∧
        b' = { b₁ with stages := name :: b₁.stages }) := by
  match tokens, h with
  | [source], h => exact ⟨source, b', h, .inl ⟨rfl, rfl⟩⟩
  | [source, as, name], h =>
    rw [readFrom] at h
    obtain ⟨_, has, h⟩ := bind_ok.mp h
    obtain ⟨b₁, hsource, h⟩ := bind_ok.mp h
    obtain ⟨_, hname, h⟩ := bind_ok.mp h
    have hname := insist_eq_ok.mp hname
    rw [Bool.and_eq_true] at hname
    exact ⟨source, b₁, hsource, .inr ⟨as, name, rfl, of_decide_eq_true (insist_eq_ok.mp has), hname.1,
      (Except.ok.inj h).symm⟩⟩
  | [], h => cases h
  | [_, _], h => cases h
  | _ :: _ :: _ :: _ :: _, h => cases h

section Reading

variable {i : Instruction}

/-- A `FROM` that the line reader accepts names one image, in the same words. -/
theorem steps_from {b b' : Bases} {tokens : List Str} (hkeyword : i.keyword = u "FROM")
    (hwords : i.words.tail = tokens) (hstages : ∀ name ∈ b.stages, isFlag name = false)
    (hexternal : ∀ image ∈ b'.external, isFlag image = false) (h : readFrom b tokens = .ok b') :
    i.Steps b b' := by
  obtain ⟨source, b₁, hsource, hrest⟩ := readFrom_ok h
  have hsame : b'.external = b₁.external := by
    obtain ⟨-, rfl⟩ | ⟨_, _, -, -, -, rfl⟩ := hrest
    · rfl
    · rfl
  have hallowed : source ∈ b.stages ∨ source ∈ b'.external := by
    obtain ⟨-, hmem⟩ | ⟨rfl, -⟩ := readSource_ok hsource
    · exact .inl hmem
    · exact .inr (hsame ▸ List.mem_insert_self)
  have hflag : isFlag source = false := hallowed.elim (hstages source) (hexternal source)
  obtain ⟨rest, hrest'⟩ : ∃ rest, tokens = source :: rest := by
    obtain ⟨heq, -⟩ | ⟨_, _, heq, -⟩ := hrest
    · exact ⟨_, heq⟩
    · exact ⟨_, heq⟩
  have harguments : i.arguments = tokens := by
    rw [Instruction.arguments, hwords, hrest', List.dropWhile_cons_of_neg (by simp [hflag])]
  have himages : i.images = [source] := by
    rw [Instruction.images, if_pos hkeyword, harguments, hrest']
    rfl
  refine ⟨fun _ image himage => ?_, fun name hname => ?_, fun image himage => ?_⟩
  · rw [himages] at himage
    exact List.mem_singleton.mp himage ▸ hallowed
  · have hbefore : b₁.stages = b.stages := by
      obtain ⟨rfl, -⟩ | ⟨rfl, -⟩ := readSource_ok hsource
      · rfl
      · rfl
    obtain ⟨-, rfl⟩ | ⟨as, added, htokens, has, hcomponent, rfl⟩ := hrest
    · exact .inl (hbefore ▸ hname)
    · obtain rfl | hname := List.mem_cons.mp hname
      · refine .inr ⟨?_, isFlag_component hcomponent⟩
        rw [Instruction.stage, harguments, htokens, if_pos ⟨hkeyword, by simp [has]⟩]
        rfl
      · exact .inl (hbefore ▸ hname)
  · rw [hsame] at himage
    obtain ⟨rfl, -⟩ | ⟨rfl, hdigest⟩ := readSource_ok hsource
    · exact .inl himage
    · obtain rfl | himage := List.mem_insert_iff.mp himage
      · exact .inr ⟨hdigest, hkeyword, by simp [himages]⟩
      · exact .inl himage

/-- A line that is no `FROM` leaves the sets as they are. -/
theorem readLine_kept {b b' : Bases} {line : Str} (h : keywordOf (wordsBy isWhite line) ≠ u "FROM")
    (hread : readLine b line = .ok b') : b' = b := by
  by_cases hcopy : keywordOf (wordsBy isWhite line) = u "COPY"
  · rw [readLine_eq] at hread
    cases hwords : wordsBy isWhite line with
    | nil =>
      rw [hwords] at hcopy
      exact absurd hcopy (by decide)
    | cons word tokens =>
      rw [hwords] at hcopy hread
      rw [readTokens, if_pos (show upper word = u "COPY" from hcopy)] at hread
      obtain ⟨_, -, hread⟩ := bind_ok.mp hread
      exact (Except.ok.inj hread).symm
  · rw [readLine_other hcopy h] at hread
    exact (Except.ok.inj hread).symm

theorem readLines_unchanged {b b' : Bases} {lines : List Str}
    (h : ∀ line ∈ lines, keywordOf (wordsBy isWhite line) ≠ u "FROM") (hread : readLines b lines = .ok b') :
    b' = b := by
  induction lines with
  | nil => exact (Except.ok.inj hread).symm
  | cons line rest ih =>
    obtain ⟨b₁, hline, hrest⟩ := bind_ok.mp hread
    obtain rfl := readLine_kept (h line List.mem_cons_self) hline
    exact ih (fun line hline => h line (List.mem_cons_of_mem _ hline)) hrest

theorem readLine_external {b b' : Bases} {line : Str} (h : readLine b line = .ok b') :
    b.external ⊆ b'.external := by
  by_cases hfrom : keywordOf (wordsBy isWhite line) = u "FROM"
  · rw [readLine_eq] at h
    cases hwords : wordsBy isWhite line with
    | nil =>
      rw [hwords] at hfrom
      exact absurd hfrom (by decide)
    | cons word tokens =>
      have hword : upper word = u "FROM" := by rwa [hwords] at hfrom
      rw [hwords, readTokens, if_neg (by rw [hword]; decide), if_neg (not_not_intro hword)] at h
      obtain ⟨source, b₁, hsource, hrest⟩ := readFrom_ok h
      have hsame : b'.external = b₁.external := by
        obtain ⟨-, rfl⟩ | ⟨_, _, -, -, -, rfl⟩ := hrest
        · rfl
        · rfl
      rw [hsame]
      obtain ⟨rfl, -⟩ | ⟨rfl, -⟩ := readSource_ok hsource
      · exact List.Subset.refl _
      · exact fun _ himage => List.mem_insert_of_mem himage
  · rw [readLine_kept hfrom h]
    exact List.Subset.refl _

theorem readLines_external {b b' : Bases} {lines : List Str} (h : readLines b lines = .ok b') :
    b.external ⊆ b'.external := by
  induction lines generalizing b with
  | nil =>
    obtain rfl := Except.ok.inj h
    exact List.Subset.refl _
  | cons line rest ih =>
    obtain ⟨b₁, hline, hrest⟩ := bind_ok.mp h
    exact List.Subset.trans (readLine_external hline) (ih hrest)

/-- What a `COPY` that the line reader accepts draws from is a stage. -/
theorem mem_stages_of_copy {b b' : Bases} {line flag : Str} (hkeyword : keywordOf (wordsBy isWhite line) = u "COPY")
    (hread : readLine b line = .ok b') (hflag : flag ∈ (wordsBy isWhite line).tail)
    (hfrom : fromFlag.isPrefixOf flag = true) : flag.drop fromFlag.length ∈ b.stages := by
  rw [readLine_eq] at hread
  cases hwords : wordsBy isWhite line with
  | nil =>
    rw [hwords] at hflag
    cases hflag
  | cons word tokens =>
    rw [hwords] at hkeyword hread hflag
    rw [readTokens, if_pos (show upper word = u "COPY" from hkeyword)] at hread
    obtain ⟨_, hall, -⟩ := bind_ok.mp hread
    have hflag' := List.all_eq_true.mp (insist_eq_ok.mp hall) flag hflag
    rw [hfrom] at hflag'
    exact of_decide_eq_true hflag'

/-- An instruction on one line has the words of the line. -/
theorem words_of_alone (hmore : i.more = []) (hends : continues i.first = false)
    (hblank : (i.first.all fun c => !isWhite c || isBlank c) = true) : i.words = wordsBy isWhite i.first := by
  have hlines : i.lines.flatMap body = i.first := by
    rw [Instruction.lines, hmore, List.flatMap_singleton, body, if_neg (by simp [hends])]
  rw [Instruction.words, hlines]
  refine wordsBy_congr fun c hc => ?_
  have hpoint := List.all_eq_true.mp hblank c hc
  rw [Bool.eq_iff_iff]
  refine ⟨isWhite_of_isBlank, fun hwhite => ?_⟩
  rwa [hwhite] at hpoint

/-- What one instruction does to the reader's sets. -/
theorem steps_of_readLines {b b' : Bases} (halike : i.ReadsAlike) (hstages : ∀ name ∈ b.stages, isFlag name = false)
    (hexternal : ∀ image ∈ b'.external, isFlag image = false) (h : readLines b i.lines = .ok b') :
    i.Steps b b' := by
  by_cases hfrom : i.keyword = u "FROM"
  · obtain ⟨hmore, hends, hblank⟩ := halike.fromAlone (.inl hfrom)
    have hwords := words_of_alone hmore hends hblank
    rw [Instruction.lines, hmore] at h
    obtain ⟨b₁, hline, hrest⟩ := bind_ok.mp h
    obtain rfl := Except.ok.inj hrest
    rw [readLine_eq, ← hwords] at hline
    cases hparts : i.words with
    | nil =>
      rw [Instruction.keyword, hparts] at hfrom
      exact absurd hfrom (by decide)
    | cons word tokens =>
      have hword : upper word = u "FROM" := by rwa [Instruction.keyword, hparts] at hfrom
      rw [hparts, readTokens, if_neg (by rw [hword]; decide), if_neg (not_not_intro hword)] at hline
      exact steps_from hfrom (by rw [hparts]; rfl) hstages hexternal hline
  · have hlines : ∀ line ∈ i.lines, keywordOf (wordsBy isWhite line) ≠ u "FROM" := by
      intro line hline hkeyword
      obtain ⟨hmore, hends, hblank⟩ := halike.fromAlone (.inr ⟨line, hline, hkeyword⟩)
      rw [Instruction.lines, hmore, List.mem_singleton] at hline
      rw [hline, ← words_of_alone hmore hends hblank] at hkeyword
      exact hfrom hkeyword
    obtain rfl := readLines_unchanged hlines h
    refine ⟨fun hrun image himage => ?_, fun name hname => .inl hname, fun _ himage => .inl himage⟩
    rw [Instruction.images, if_neg hfrom, if_neg hrun] at himage
    split at himage
    · next hcopy =>
      obtain ⟨flag, hflag, rfl⟩ := List.mem_map.mp himage
      obtain ⟨hflag, hstart⟩ := List.mem_filter.mp hflag
      obtain ⟨hkeyword, hmem⟩ := halike.copySources hcopy flag hflag hstart
      obtain ⟨b₁, hline, -⟩ := bind_ok.mp h
      exact .inl (mem_stages_of_copy hkeyword hline hmem hstart)
    · cases himage

end Reading

/-! ## What an accepted file pulls -/

/-- What the line reader's sets say of all the instructions it has read. -/
theorem steps_of_run {instructions : List Instruction} (halike : ∀ i ∈ instructions, i.ReadsAlike)
    {b b' : Bases} (hstages : ∀ name ∈ b.stages, isFlag name = false)
    (hexternal : ∀ image ∈ b'.external, isFlag image = false)
    (h : readLines b (instructions.flatMap Instruction.lines) = .ok b') :
    (∀ before i after, instructions = before ++ i :: after → i.keyword ≠ u "RUN" → ∀ image ∈ i.images,
      image ∈ b.stages ∨ image ∈ before.filterMap Instruction.stage ∨ image ∈ b'.external) ∧
    ∀ image ∈ b'.external, image ∈ b.external ∨
      IsDigestImage image ∧ ∃ i ∈ instructions, i.keyword = u "FROM" ∧ image ∈ i.images := by
  induction instructions generalizing b with
  | nil =>
    obtain rfl := Except.ok.inj h
    refine ⟨fun before i after heq => ?_, fun _ himage => .inl himage⟩
    exact absurd heq (by simp)
  | cons first rest ih =>
    rw [List.flatMap_cons, readLines, List.foldlM_append] at h
    obtain ⟨b₁, hfirst, hrest⟩ := bind_ok.mp h
    have hmono : b₁.external ⊆ b'.external := readLines_external hrest
    have hstep : first.Steps b b₁ :=
      steps_of_readLines (halike first List.mem_cons_self) hstages
        (fun image himage => hexternal image (hmono himage)) hfirst
    have hstages₁ : ∀ name ∈ b₁.stages, isFlag name = false := fun name hname =>
      (hstep.stages name hname).elim (hstages name) And.right
    obtain ⟨himages, hused⟩ := ih (fun i hi => halike i (List.mem_cons_of_mem _ hi)) hstages₁ hrest
    refine ⟨fun before i after heq hrun image himage => ?_, fun image himage => ?_⟩
    · cases before with
      | nil =>
        obtain ⟨rfl, rfl⟩ := List.cons.inj heq
        obtain hstage | hmem := hstep.images hrun image himage
        · exact .inl hstage
        · exact .inr (.inr (hmono hmem))
      | cons i₀ before =>
        obtain ⟨rfl, htail⟩ := List.cons.inj heq
        have hdeclared : ∀ name ∈ before.filterMap Instruction.stage,
            name ∈ (first :: before).filterMap Instruction.stage := fun name hname => by
          obtain ⟨j, hj, hstage⟩ := List.mem_filterMap.mp hname
          exact List.mem_filterMap.mpr ⟨j, List.mem_cons_of_mem _ hj, hstage⟩
        obtain hstage | hbefore | hmem := himages before i after htail hrun image himage
        · obtain hstage | ⟨hstage, -⟩ := hstep.stages image hstage
          · exact .inl hstage
          · exact .inr (.inl (List.mem_filterMap.mpr ⟨first, List.mem_cons_self, hstage⟩))
        · exact .inr (.inl (hdeclared image hbefore))
        · exact .inr (.inr hmem)
    · obtain hmem | ⟨hdigest, i, hi, hfrom⟩ := hused image himage
      · obtain hmem | ⟨hdigest, hfrom⟩ := hstep.external image hmem
        · exact .inl hmem
        · exact .inr ⟨hdigest, first, List.mem_cons_self, hfrom⟩
      · exact .inr ⟨hdigest, i, List.mem_cons_of_mem _ hi, hfrom⟩

/-- What acceptance says of the sets the loop ends with. -/
theorem repositoryDockerfile_ok {repositoryFile : Json → Except PyErr Str} {file : Str → Option Bytes}
    {value : Json} {expected : List Str} {relative text : Str}
    (h : repositoryDockerfile repositoryFile file value (some expected) = .ok relative)
    (htext : readText (file relative) = .ok text) :
    ∃ b, readLines ⟨[], []⟩ (splitLines text) = .ok b ∧ ∀ image, image ∈ b.external ↔ image ∈ expected := by
  obtain ⟨path, -, h⟩ := bind_ok.mp h
  cases hread : readText (file path) with
  | error e =>
    rw [hread] at h
    cases h
  | ok content =>
    rw [hread] at h
    obtain ⟨b, hlines, h⟩ := bind_ok.mp h
    obtain ⟨_, -, h⟩ := bind_ok.mp h
    obtain ⟨_, hsame, h⟩ := bind_ok.mp h
    obtain rfl := Except.ok.inj h
    obtain rfl := Except.ok.inj (htext.symm.trans hread)
    have hsame := insist_eq_ok.mp hsame
    rw [Option.all_some, sameSet, subset, subset, Bool.and_eq_true, List.all_eq_true, List.all_eq_true] at hsame
    exact ⟨b, hlines, fun image =>
      ⟨fun himage => of_decide_eq_true (hsame.1 image himage), fun himage => of_decide_eq_true (hsame.2 image himage)⟩⟩

/-- A file that both read alike, accepted with the images `expected`, pulls only earlier stages
and pinned images, and uses each expected one, exactly when the mounts of its `RUN`s do. -/
theorem dockerfile_pinned_iff (repositoryFile : Json → Except PyErr Str) (file : Str → Option Bytes)
    (value : Json) (expected : List Str) (relative text : Str)
    (haccept : repositoryDockerfile repositoryFile file value (some expected) = .ok relative)
    (htext : readText (file relative) = .ok text) (halike : ReadsAlike expected text) :
    PullsPinned expected (dockerInstructions text) ↔ MountsPinned expected (dockerInstructions text) := by
  constructor
  · exact fun h before i after heq _ => h.pinned before i after heq
  · intro hmounts
    obtain ⟨b, hread, hexpected⟩ := repositoryDockerfile_ok haccept htext
    rw [readLines_dockerInstructions halike] at hread
    obtain ⟨himages, hused⟩ := steps_of_run halike.instructions (fun _ hname => absurd hname List.not_mem_nil)
      (fun image himage => halike.images image ((hexpected image).mp himage)) hread
    have hdigest : ∀ image ∈ b.external, IsDigestImage image := fun image himage =>
      (hused image himage).elim (fun h => absurd h List.not_mem_nil) And.left
    refine ⟨fun before i after heq image himage => ?_, fun image himage => ?_⟩
    · by_cases hrun : i.keyword = u "RUN"
      · exact hmounts before i after heq hrun image himage
      · obtain hnil | hstage | hmem := himages before i after heq hrun image himage
        · cases hnil
        · exact .inl hstage
        · exact .inr ⟨(hexpected image).mp hmem, hdigest image hmem⟩
    · exact (hused image ((hexpected image).mpr himage)).elim (fun h => absurd h List.not_mem_nil) And.right

/-! ## Two files -/

def baseImage : String := "node@sha256:" ++ "00000000000000000000000000000000" ++ "00000000000000000000000000000000"

/-- A stage, a comment, a continued `RUN` and a `COPY` from the stage. -/
def stagedDockerfile : String :=
  "FROM " ++ baseImage ++ " AS build\n# tools\nRUN npm ci && \\\n  npm ls\nCOPY --from=build /app /app\n"

theorem dockerfile_pinned_iff_staged :
    PullsPinned [u baseImage] (dockerInstructions (u stagedDockerfile)) ↔
      MountsPinned [u baseImage] (dockerInstructions (u stagedDockerfile)) :=
  dockerfile_pinned_iff (fun _ => .ok (u "Dockerfile")) (fun _ => fileOf stagedDockerfile) (.str (u "Dockerfile"))
    [u baseImage] (u "Dockerfile") (u stagedDockerfile) (by decide +kernel) (by decide +kernel)
    ⟨by decide +kernel, by decide, by decide +kernel⟩

/-- The source of a `COPY` stands on the line the `COPY` continues in. -/
def continuedDockerfile : String := "FROM " ++ baseImage ++ "\nCOPY \\\n  --from=other:latest /app /app\n"

theorem continued_copy_accepted :
    repositoryDockerfile (fun _ => .ok (u "Dockerfile")) (fun _ => fileOf continuedDockerfile)
        (.str (u "Dockerfile")) (some [u baseImage]) = .ok (u "Dockerfile") ∧
      readText (fileOf continuedDockerfile) = .ok (u continuedDockerfile) ∧
      ¬PullsPinned [u baseImage] (dockerInstructions (u continuedDockerfile)) := by
  refine ⟨by decide +kernel, by decide +kernel, fun h => ?_⟩
  have hinstructions : dockerInstructions (u continuedDockerfile) =
      [⟨u "FROM " ++ u baseImage, []⟩] ++
        ⟨u "COPY \\", [u "  --from=other:latest /app /app"]⟩ :: [] := by decide +kernel
  exact absurd (h.pinned _ _ _ hinstructions (u "other:latest") (by decide +kernel)) (by decide +kernel)

end McpTrust.Refresh
