import DeclFront.CommandLine.Run
import DeclFront.Proofs.Token.Dump
import DeclFront.Proofs.Tiling

/-!
# Proofs/Listing — a listing of tokens tells the text

    path  [1:1-1:7]  ␣  Keyword(Keyword \x7b text: "import", category: Declaration \x7d)  ⏎

A line of the listing holds the range of a token and the term for its kind.  The path is the same on
every line, the marks of the range end with a bracket, and the term holds no line end, so the line
tells its token's kind and where the next line starts (`Token.listing_append_inj`).  The kinds spell
the tokens and the tokens spell the text: **listings that agree are listings of one text**
(`TokenStream.listsFaithfully`).
-/

namespace DeclFront

/-! ## Lines -/

theorem toList_lines (texts : List String) :
    (CommandLine.lines texts).toList = texts.flatMap fun text => text.toList ++ ['\n'] := by
  rw [CommandLine.lines, String.toList_join, List.flatMap_map]
  simp only [String.toList_append, String.reduceToList]

/-- **Texts without line ends are the lines between the line ends.** -/
theorem splitOn_lines {texts : List String} (h : ∀ text ∈ texts, OneLine text.toList) :
    (CommandLine.lines texts).toList.splitOn '\n' = texts.map String.toList ++ [[]] := by
  rw [toList_lines]
  induction texts with
  | nil => rfl
  | cons text texts ih =>
    obtain ⟨htext, htexts⟩ := List.forall_mem_cons.1 h
    have hne : ∀ c ∈ text.toList, (c == '\n') = false := fun c hc =>
      beq_false_of_ne (ne_of_mem_of_not_mem hc htext.1)
    rw [List.flatMap_cons, List.append_assoc, List.singleton_append, List.splitOn,
      List.splitOnP_append_cons_of_forall_mem hne '\n' (by decide)]
    exact congrArg (text.toList :: ·) (ih htexts)

theorem oneLine_text_range {r : Range} (hpath : OneLine r.start.path.toList) :
    OneLine r.text.toList := by
  rw [Range.toList_text]
  exact hpath.append
    ⟨r.notMem_marks (by decide) (by decide), r.notMem_marks (by decide) (by decide)⟩

namespace Token

theorem toList_listing (t : Token) :
    t.listing.toList =
      t.range.start.path.toList ++ (t.range.marks ++ ' ' :: t.kind.dump.toList) := by
  rw [listing, String.toList_append, String.toList_append, Range.toList_text]
  simp only [String.reduceToList, List.append_assoc, List.singleton_append]

theorem oneLine_listing {t : Token} (hpath : OneLine t.range.start.path.toList) :
    OneLine t.listing.toList := by
  rw [listing, String.toList_append, String.toList_append]
  exact ((oneLine_text_range hpath).append (by decide)).append t.kind.oneLine_dump

/-- **A line tells its token**, and so where it ends. -/
theorem listing_append_inj {t u : Token} {back back' : List Char}
    (hpath : t.range.start.path = u.range.start.path)
    (h : t.listing.toList ++ '\n' :: back = u.listing.toList ++ '\n' :: back') :
    t.kind = u.kind ∧ back = back' := by
  simp only [toList_listing, hpath, List.append_assoc, List.cons_append] at h
  obtain ⟨-, -, hbehind⟩ := Range.marks_append_inj (List.append_cancel_left h)
  obtain ⟨hdump, hback⟩ := append_cons_inj_of_notMem t.kind.oneLine_dump.1 u.kind.oneLine_dump.1
    (List.cons.inj hbehind).2
  exact ⟨TokenKind.dump_injective (String.toList_injective hdump), hback⟩

/-- Tokens under one path with the same lines are of the same kinds. -/
theorem map_kind_eq_of_lines {path : String} {ts us : List Token}
    (hts : ∀ t ∈ ts, t.range.start.path = path) (hus : ∀ u ∈ us, u.range.start.path = path)
    (h : CommandLine.lines (ts.map listing) = CommandLine.lines (us.map listing)) :
    ts.map kind = us.map kind := by
  have hchars := congrArg String.toList h
  rw [toList_lines, toList_lines, List.flatMap_map, List.flatMap_map] at hchars
  clear h
  induction ts generalizing us with
  | nil =>
    cases us with
    | nil => rfl
    | cons u us => simp at hchars
  | cons t ts ih =>
    cases us with
    | nil => simp at hchars
    | cons u us =>
      obtain ⟨ht, hts⟩ := List.forall_mem_cons.1 hts
      obtain ⟨hu, hus⟩ := List.forall_mem_cons.1 hus
      simp only [List.flatMap_cons, List.append_assoc, List.singleton_append] at hchars
      obtain ⟨hkind, hbehind⟩ := listing_append_inj (ht.trans hu.symm) hchars
      rw [List.map_cons, List.map_cons, hkind, ih hts hus hbehind]

/-- All tokens have the path of their file. -/
theorem path_of_mem_ofText {path : String} {p : Position} {text : List Char} {t : Token}
    (ht : t ∈ ofText path p text) : t.range.start.path = path := by
  obtain ⟨front, back, h⟩ := List.append_of_mem ht
  rw [(range_of_ofText_append h).2]

end Token

/-! ## Texts -/

namespace TokenStream

open CommandLine

/-- The tokens, line by line. -/
def listing (s : TokenStream) : List String := s.tokens.map Token.listing

/-- The kinds spell what the tokens do. -/
theorem spelling_eq_join_kinds (s : TokenStream) :
    s.spelling = String.join ((s.tokens.map Token.kind).map TokenKind.spelling) := by
  rw [List.map_map]
  rfl

/-- **A text is known from the listing of its tokens.** -/
theorem eq_of_lines_listing {path text text' : String}
    (h : lines (ofText path text).listing = lines (ofText path text').listing) : text = text' := by
  have hkinds :
      (ofText path text).tokens.map Token.kind = (ofText path text').tokens.map Token.kind :=
    Token.map_kind_eq_of_lines (fun _ => Token.path_of_mem_ofText)
      (fun _ => Token.path_of_mem_ofText) h
  rw [← spelling_ofText path text, ← spelling_ofText path text', spelling_eq_join_kinds,
    spelling_eq_join_kinds, hkinds]

/-- **One line for each token**, whatever it holds. -/
theorem oneLine_of_mem_listing {path text line : String} (hpath : OneLine path.toList)
    (hline : line ∈ (ofText path text).listing) : OneLine line.toList := by
  obtain ⟨t, ht, rfl⟩ := List.mem_map.1 hline
  exact Token.oneLine_listing (Token.path_of_mem_ofText ht ▸ hpath)

/-- What a run writes that lists tokens and nothing else. -/
theorem stdout_runText {options : Options} (hlist : options.listTokens = true)
    (htree : options.printTree = false) (coloured : Bool) (path text : String) :
    (runText options coloured path text).stdout = lines (ofText path text).listing := by
  simp [runText, hlist, htree, listing, lines]

/-- What the listings of texts under one path show. -/
structure ListsFaithfully (path : String) : Prop where
  /-- Texts whose listings are equal line by line are equal, and so are their tokens. -/
  eq_of_listing : ∀ text text', (ofText path text).listing = (ofText path text').listing →
    text = text' ∧ (ofText path text).tokens = (ofText path text').tokens
  /-- So are texts for which runs that list tokens, and nothing else, write the same. -/
  eq_of_stdout : ∀ options coloured text text',
    options.listTokens = true → options.printTree = false →
      (runText options coloured path text).stdout = (runText options coloured path text').stdout →
        text = text' ∧ (ofText path text).tokens = (ofText path text').tokens
  /-- No term for a kind holds a line end. -/
  oneLine_dump : ∀ kind : TokenKind, OneLine kind.dump.toList
  /-- Under a path without line ends, no line for a token holds one. -/
  oneLine_listing : OneLine path.toList →
    ∀ text, ∀ line ∈ (ofText path text).listing, OneLine line.toList
  /-- Then what is written has one line for each token, in order, and no others. -/
  splitOn_stdout : OneLine path.toList → ∀ options coloured text,
    options.listTokens = true → options.printTree = false →
      (runText options coloured path text).stdout.toList.splitOn '\n' =
        (ofText path text).tokens.map (·.listing.toList) ++ [[]]

/-- **A listing loses nothing of a text**, whatever its path is, and has a line for each token. -/
theorem listsFaithfully (path : String) : ListsFaithfully path where
  eq_of_listing text text' h := by
    obtain rfl : text = text' := eq_of_lines_listing (congrArg lines h)
    exact ⟨rfl, rfl⟩
  eq_of_stdout options coloured text text' hlist htree h := by
    rw [stdout_runText hlist htree, stdout_runText hlist htree] at h
    obtain rfl : text = text' := eq_of_lines_listing h
    exact ⟨rfl, rfl⟩
  oneLine_dump := TokenKind.oneLine_dump
  oneLine_listing hpath _ _ hline := oneLine_of_mem_listing hpath hline
  splitOn_stdout hpath options coloured text hlist htree := by
    rw [stdout_runText hlist htree, splitOn_lines fun _ hline => oneLine_of_mem_listing hpath hline,
      listing, List.map_map]
    rfl

end TokenStream

end DeclFront
