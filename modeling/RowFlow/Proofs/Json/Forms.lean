import Mathlib
import RowFlow.Proofs.Json.Containers
import RowFlow.Proofs.Json.Nesting
import RowFlow.Source

/-!
# Forms of JSON Texts

Objects can be given as the items of an array or one behind another, for instance one on each line.
The two forms are read in different ways, the one as a whole and the other bit by bit, and have the
same rows (`Source.json_forms_alike`).
-/

namespace RowFlow

namespace Json

/-! ## Texts of objects -/

/-- An object starts with a brace. -/
theorem opening_of_object {depth : Nat} {bytes rest : List UInt8} {members : List (String × Json)}
    (h : value depth bytes = .ok (.object members, rest)) :
    ∃ tail, skipBlanks bytes = '\x7b'.toUInt8 :: tail := by
  rw [value_eq, valueWith] at h
  split at h
  · cases h
  · rename_i b tail hskip
    -- each other first byte starts a value that is no object
    split_ifs at h with hnull htrue hfalse hminus hdigit hquote harray hobject
    · cases (word_eq_ok_iff.1 h).1
    · cases (word_eq_ok_iff.1 h).1
    · cases (word_eq_ok_iff.1 h).1
    · exact (isNumber_numeral h).elim
    · exact (isNumber_numeral h).elim
    · obtain ⟨⟨text, left⟩, -, h⟩ := bind_eq_ok_iff.1 h
      cases h
    · split at h
      · cases h
      · obtain ⟨⟨values, left⟩, -, h⟩ := bind_eq_ok_iff.1 h
        cases h
    · exact ⟨tail, hobject ▸ hskip⟩

/-- Blanks in front of a text are skipped with its own. -/
theorem skipBlanks_blanks {blanks : List UInt8} (h : skipBlanks blanks = []) (bytes : List UInt8) :
    skipBlanks (blanks ++ bytes) = skipBlanks bytes := by
  unfold skipBlanks at h ⊢
  rw [List.dropWhile_append, h]
  rfl

/-- Blanks are skipped once. -/
theorem skipBlanks_skipBlanks (bytes : List UInt8) :
    skipBlanks (skipBlanks bytes) = skipBlanks bytes := by
  unfold skipBlanks
  rw [List.dropWhile_eq_self_iff]
  exact List.dropWhile_get_zero_not isBlank bytes

/-- A value does not see the blanks in front of it. -/
theorem value_skipBlanks (depth : Nat) (bytes : List UInt8) :
    value depth (skipBlanks bytes) = value depth bytes := by
  rw [value_eq, valueWith, valueWith, skipBlanks_skipBlanks]

/-- Whether never more than `limit` brackets are open in a text, not counting those in strings. -/
def NestsWithin (limit : Nat) (text : String) : Prop :=
  nestsWithin limit .outside 0 (Utf8.encode text) = true

/-- A text that is read as an object wherever it stands, with room for `limit` brackets. -/
structure Embeds (limit : Nat) (text : String) (object : Json) : Prop where
  opening : ∃ tail, skipBlanks (Utf8.encode text) = '\x7b'.toUInt8 :: tail
  reads : ∃ left, skipBlanks left = [] ∧ ∀ depth, limit ≤ depth → ∀ more,
    value depth (Utf8.encode text ++ more) = .ok (object, left ++ more)

/-- A text that is read as an object by itself can stand in any text that leaves it room. -/
theorem embeds {limit : Nat} {text : String} {members : List (String × Json)}
    (h : ofBytes (Utf8.encode text) = .ok (.object members)) (hn : NestsWithin limit text) :
    Embeds limit text (.object members) := by
  obtain ⟨⟨object, left⟩, hvalue, h⟩ := bind_eq_ok_iff.1 h
  dsimp only at h
  split at h
  · rename_i hleft
    cases h
    -- nothing but blanks follows the object, and it has been read with more depth than it needs
    refine ⟨opening_of_object hvalue, left, List.isEmpty_iff.1 hleft, fun depth hdepth more => ?_⟩
    exact (value_longer depthLimit (by omega) hvalue nofun hn).1 more
  · -- something else stands behind the object, so the text would not have been read
    cases h

/-- An object starts with its brace, whatever follows it. -/
theorem Embeds.skipBlanks_append {limit : Nat} {text : String} {object : Json}
    (h : Embeds limit text object) :
    ∃ tail, ∀ more, skipBlanks (Utf8.encode text ++ more) = '\x7b'.toUInt8 :: (tail ++ more) := by
  obtain ⟨tail, htail⟩ := h.opening
  exact ⟨tail, fun more => Json.skipBlanks_append htail more⟩

/-! ## Arrays -/

section
variable {bytes rest : List UInt8} (h : skipBlanks bytes = '\x7b'.toUInt8 :: rest)
include h

/-- The first item of an array is an object if a brace comes next. -/
theorem nextItem?_brace : nextItem? true bytes = .ok (some (skipBlanks bytes)) :=
  nextItem?_eq_some_iff.2 ⟨_, rest, .first h, by decide, h⟩

/-- So are later ones, behind a comma. -/
theorem nextItem?_comma {blanks : List UInt8} (hblanks : skipBlanks blanks = []) :
    nextItem? false (blanks ++ ','.toUInt8 :: bytes) = .ok (some (skipBlanks bytes)) := by
  have hcomma : skipBlanks (blanks ++ ','.toUInt8 :: bytes) = ','.toUInt8 :: bytes :=
    (skipBlanks_blanks hblanks _).trans (skipBlanks_cons rfl bytes)
  exact nextItem?_eq_some_iff.2 ⟨_, rest, .later hcomma h, by decide, h⟩

end

section
variable {limit depth : Nat} (hdepth : limit ≤ depth)
include hdepth

/-- Objects behind commas are read up to the end of an array. -/
theorem items_laterParts {texts : List String} {objects : List Json}
    (h : List.Forall₂ (Embeds limit) texts objects) {blanks : List UInt8}
    (hblanks : skipBlanks blanks = []) {fuel : Nat} (hfuel : texts.length < fuel)
    (rest : List UInt8) :
    items (value depth) fuel false (blanks ++ (laterParts texts ++ ']'.toUInt8 :: rest)) =
      .ok (objects, rest) := by
  -- every text is a step of the fuel; blanks left by one text stand in front of the comma
  induction h generalizing blanks fuel with
  | nil =>
    obtain ⟨fuel, rfl⟩ := Nat.exists_eq_add_of_lt hfuel
    -- nothing is left but the bracket
    have hend : skipBlanks (blanks ++ ']'.toUInt8 :: rest) = ']'.toUInt8 :: rest :=
      (skipBlanks_blanks hblanks _).trans (skipBlanks_cons rfl rest)
    have hnext : nextItem? false (blanks ++ ']'.toUInt8 :: rest) = .ok none :=
      nextItem?_eq_none_iff.2 ⟨rest, hend⟩
    change items (value depth) _ false (blanks ++ ']'.toUInt8 :: rest) = _
    simp only [items, hnext, bind, Except.bind, hend]
    rfl
  | @cons text object texts objects htext _ ih =>
    obtain ⟨fuel, rfl⟩ := Nat.exists_eq_add_of_lt (Nat.zero_lt_of_lt hfuel)
    obtain ⟨tail, hopening⟩ := htext.skipBlanks_append
    obtain ⟨left, hleft, hreads⟩ := htext.reads
    rw [laterParts_cons, List.cons_append, List.append_assoc]
    simp only [items, nextItem?_comma (hopening _) hblanks, bind, Except.bind, value_skipBlanks,
      hreads depth hdepth, ih hleft (Nat.lt_of_succ_lt_succ hfuel)]
    rfl

end

/-- A bracket opens an array, which takes one of the depth. -/
theorem value_bracket (depth : Nat) (bytes : List UInt8) :
    value (depth + 1) ('['.toUInt8 :: bytes) = do
      let (values, rest) ← items (value depth) (bytes.length + 1) true bytes
      return (.array values, rest) :=
  rfl

/-- The text of an array of objects is the array of the objects. -/
theorem ofBytes_array {limit : Nat} (hlimit : limit < depthLimit) {texts : List String}
    {objects : List Json} (h : List.Forall₂ (Embeds limit) texts objects) :
    ∃ bytes, Utf8.encode (between "[" texts "]") = '['.toUInt8 :: bytes ∧
      ofBytes ('['.toUInt8 :: bytes) = .ok (.array objects) := by
  cases h with
  | nil => exact ⟨[']'.toUInt8], by decide, rfl⟩
  | @cons text object texts objects htext htexts =>
    obtain ⟨tail, hopening⟩ := htext.skipBlanks_append
    obtain ⟨left, hleft, hreads⟩ := htext.reads
    refine ⟨Utf8.encode text ++ (laterParts texts ++ [']'.toUInt8]), ?_, ?_⟩
    · rw [encode_between, List.append_assoc]
      rfl
    · -- the bracket of the array takes one of the depth
      obtain ⟨depth, hdepth⟩ : ∃ depth, depthLimit = depth + 1 := ⟨126, rfl⟩
      have hlimit : limit ≤ depth := by omega
      -- every item takes at least the byte of its comma, so the bytes are fuel enough
      have hfuel : texts.length <
          (Utf8.encode text ++ (laterParts texts ++ [']'.toUInt8])).length := by
        have hlength := length_le_laterParts texts
        simp only [List.length_append, List.length_singleton]
        omega
      have hvalue := value_bracket depth (Utf8.encode text ++ (laterParts texts ++ [']'.toUInt8]))
      rw [items, nextItem?_brace (hopening _)] at hvalue
      simp only [bind, Except.bind, value_skipBlanks, hreads depth hlimit,
        items_laterParts hlimit htexts hleft hfuel []] at hvalue
      rw [ofBytes, hdepth, hvalue]
      rfl

/-! ## Lines -/

/-- The blanks between documents. -/
def IsBlankText (text : String) : Prop := ∀ c ∈ text.toList, c ∈ [' ', '\n', '\t', '\r']

/-- A text that has texts one behind another, with any blanks in front of each of them and behind
    the last one. -/
inductive Lines : List String → String → Prop
  | none {blanks : String} : IsBlankText blanks → Lines [] blanks
  | next {blanks text rest : String} {texts : List String} : IsBlankText blanks →
    Lines texts rest → Lines (text :: texts) (blanks ++ text ++ rest)

/-- A text of blanks is skipped to its end. -/
theorem skipBlanks_encode {blanks : String} (h : IsBlankText blanks) :
    skipBlanks (Utf8.encode blanks) = [] := by
  have hall : ∀ b ∈ Utf8.encode blanks, isBlank b = true := by
    intro b hb
    obtain ⟨c, hc, hb⟩ := List.mem_flatMap.1 hb
    -- the four blanks are bytes of their own
    have hbytes : [' ', '\n', '\t', '\r'].all (fun c => (Utf8.encodeChar c).all isBlank) = true :=
      rfl
    exact List.all_eq_true.1 (List.all_eq_true.1 hbytes c (h c hc)) b hb
  exact List.dropWhile_eq_nil_iff.2 hall

/-- Blanks can be put in front of lines. -/
theorem Lines.prepend {blanks text : String} {texts : List String} (hblanks : IsBlankText blanks)
    (h : Lines texts text) : Lines texts (blanks ++ text) := by
  have hboth {more : String} (hmore : IsBlankText more) : IsBlankText (blanks ++ more) := by
    intro c hc
    rw [String.toList_append, List.mem_append] at hc
    exact hc.elim (hblanks c) (hmore c)
  cases h with
  | none hmore => exact .none (hboth hmore)
  | @next more text rest texts hmore hrest =>
    rw [← String.append_assoc, ← String.append_assoc]
    exact .next (hboth hmore) hrest

/-- Texts that are joined by ends of lines. -/
theorem lines_joined (texts : List String) : Lines texts ("\n".intercalate texts) := by
  have hnone : IsBlankText "" := nofun
  have hend : IsBlankText "\n" := List.forall_mem_singleton.2 (.tail _ (.head _))
  induction texts with
  | nil => exact .none hnone
  | cons text texts ih =>
    -- no end of line stands behind the last text
    by_cases hlast : texts = []
    · subst hlast
      have hline : Lines [text] ("" ++ text ++ "") := .next hnone (.none hnone)
      rwa [String.empty_append, String.append_empty] at hline
    · have hline : Lines (text :: texts) ("" ++ text ++ ("\n" ++ "\n".intercalate texts)) :=
        .next hnone (ih.prepend hend)
      rwa [String.empty_append, ← String.append_assoc,
        ← String.intercalate_cons_of_ne_nil hlast] at hline

/-- A text behind blanks starts with its brace, and is read up to the blanks at its end. -/
theorem Embeds.line {limit depth : Nat} (hlimit : limit ≤ depth) {text blanks : String}
    {object : Json} (h : Embeds limit text object) (hblanks : IsBlankText blanks) (rest : String) :
    ∃ tail left, skipBlanks (Utf8.encode (blanks ++ text ++ rest)) = '\x7b'.toUInt8 :: tail ∧
      (Utf8.encode rest).length ≤ tail.length ∧ skipBlanks left = [] ∧
      value depth ('\x7b'.toUInt8 :: tail) = .ok (object, left ++ Utf8.encode rest) := by
  obtain ⟨tail, hopening⟩ := h.skipBlanks_append
  obtain ⟨left, hleft, hreads⟩ := h.reads
  refine ⟨tail ++ Utf8.encode rest, left, ?_, ?_, hleft, ?_⟩
  · rw [Utf8.encode_append, Utf8.encode_append, List.append_assoc,
      skipBlanks_blanks (skipBlanks_encode hblanks), hopening]
  · rw [List.length_append]
    exact Nat.le_add_left _ _
  -- reading goes on at the brace, as it would at the blanks before it
  · rw [← hopening, value_skipBlanks, hreads depth hlimit]

/-- Documents do not see the blanks in front of them. -/
theorem documents_skipBlanks (fuel : Nat) (bytes : List UInt8) :
    documents fuel (skipBlanks bytes) = documents fuel bytes := by
  cases fuel with
  | zero => rfl
  | succ fuel => rw [documents, documents, skipBlanks_skipBlanks]

/-- Blanks in front can be dropped. -/
theorem documents_blanks {blanks : List UInt8} (h : skipBlanks blanks = []) (fuel : Nat)
    (bytes : List UInt8) : documents fuel (blanks ++ bytes) = documents fuel bytes := by
  rw [← documents_skipBlanks, skipBlanks_blanks h, documents_skipBlanks]

/-- An object is read without a look at what follows it. -/
theorem documents_brace {fuel : Nat} {bytes tail rest : List UInt8} {document : Json}
    (hskip : skipBlanks bytes = '\x7b'.toUInt8 :: tail)
    (h : value depthLimit ('\x7b'.toUInt8 :: tail) = .ok (document, rest)) :
    documents (fuel + 1) bytes = .ok document :: documents fuel rest := by
  rw [documents, hskip]
  dsimp only
  rw [h]
  rfl

section
variable {limit : Nat} (hlimit : limit < depthLimit) {texts : List String} {objects : List Json}
  (h : List.Forall₂ (Embeds limit) texts objects) {text : String} (hlines : Lines texts text)
include hlimit h hlines

/-- There are no more texts than bytes, since each of them has a brace. -/
theorem length_le_of_lines : texts.length ≤ (skipBlanks (Utf8.encode text)).length := by
  induction hlines generalizing objects with
  | none => exact Nat.zero_le _
  | @next blanks text rest texts hblanks hlines ih =>
    cases h with
    | cons htext htexts =>
      obtain ⟨tail, left, hskip, hlength, -⟩ := htext.line (Nat.le_of_lt hlimit) hblanks rest
      have hrest : (skipBlanks (Utf8.encode rest)).length ≤ (Utf8.encode rest).length :=
        List.length_dropWhile_le _ _
      have hless := ih htexts
      rw [hskip, List.length_cons, List.length_cons]
      omega

/-- Objects are read one after another. -/
theorem documents_of_lines {fuel : Nat} (hfuel : texts.length ≤ fuel) :
    documents fuel (Utf8.encode text) = objects.map .ok := by
  -- one document a step, and the fuel is at least their number
  induction hlines generalizing objects fuel with
  | none hblanks =>
    cases h
    rw [← documents_skipBlanks, skipBlanks_encode hblanks]
    cases fuel <;> rfl
  | @next blanks text rest texts hblanks hlines ih =>
    cases h with
    | cons htext htexts =>
      obtain ⟨fuel, rfl⟩ := Nat.exists_eq_add_of_lt (Nat.zero_lt_of_lt hfuel)
      obtain ⟨tail, left, hskip, -, hleft, hvalue⟩ := htext.line (Nat.le_of_lt hlimit) hblanks rest
      -- the blanks behind a document count as blanks before the next one
      rw [documents_brace hskip hvalue, documents_blanks hleft, ih htexts (by simpa using hfuel)]
      rfl

end

/-! ## Streams -/

/-- Blanks between documents are blanks before the first one, too. -/
theorem dropWhile_isLeadingBlank (bytes : List UInt8) :
    bytes.dropWhile isLeadingBlank = (skipBlanks bytes).dropWhile isLeadingBlank := by
  induction bytes with
  | nil => rfl
  | cons b rest ih =>
    cases hb : isBlank b with
    | true =>
      have hleading : isLeadingBlank b = true := by rw [isLeadingBlank, hb, Bool.true_or]
      have hskip : skipBlanks (b :: rest) = skipBlanks rest := List.dropWhile_cons_of_pos hb
      rw [List.dropWhile_cons_of_pos hleading, hskip, ih]
    | false => rw [skipBlanks_cons hb]

section
variable {limit : Nat} (hlimit : limit < depthLimit) {texts : List String} {objects : List Json}
  (h : List.Forall₂ (Embeds limit) texts objects)
include hlimit h

/-- An array of objects is the stream of the objects. -/
theorem stream_array : stream (Utf8.encode (between "[" texts "]")) = .ok (objects.map .ok) := by
  obtain ⟨bytes, hbytes, hread⟩ := ofBytes_array hlimit h
  -- the first byte that is no blank is the bracket, so the text is read as a whole
  have hleading : ('['.toUInt8 :: bytes).dropWhile isLeadingBlank = '['.toUInt8 :: bytes := rfl
  rw [hbytes, stream, hleading]
  dsimp only
  rw [if_pos rfl, hread]
  rfl

/-- So are lines of objects. -/
theorem stream_lines {text : String} (hlines : Lines texts text) :
    stream (Utf8.encode text) = .ok (objects.map .ok) := by
  -- every document takes a step and at least a byte
  have hread := documents_of_lines hlimit h hlines (length_le_of_lines hlimit h hlines)
  rw [← documents_skipBlanks] at hread
  rw [stream, dropWhile_isLeadingBlank]
  cases hlines with
  | none hblanks =>
    cases h
    -- without objects there are blanks only, and no first byte
    rw [skipBlanks_encode hblanks]
    rfl
  | next hblanks hrest =>
    cases h with
    | cons htext htexts =>
      obtain ⟨tail, left, hskip, -⟩ := htext.line (Nat.le_of_lt hlimit) hblanks _
      -- the first byte is a brace, so the text is not read as an array
      have hleading : ('\x7b'.toUInt8 :: tail).dropWhile isLeadingBlank = '\x7b'.toUInt8 :: tail :=
        rfl
      rw [hskip] at hread ⊢
      rw [hleading]
      exact congrArg Except.ok hread

end

/-- The objects of a stream become rows with numbers, one after another. -/
theorem rows_of_stream {bytes : List UInt8} {objects : List Json}
    (h : stream bytes = .ok (objects.map .ok)) (schema : Schema) :
    rows schema bytes = .ok (objects.zipIdx.map fun (document, id) => row schema id document) := by
  simp only [rows, h, List.zipIdx_map, List.map_map]
  rfl

end Json

/-! ## Sources -/

/-- An input with a text: the text itself, or the path of a file with it. -/
def JsonInput.Gives (files : Files) (text : String) : JsonInput → Prop
  | .text t => t = text
  | .path p => files.read? p = some (Utf8.encode text)

namespace Source

/-- A JSON source reads the text that its input gives, from wherever it is. -/
theorem openOn_json {input : JsonInput} {files : Files} {text : String}
    (h : input.Gives files text) (schema : Schema) (spent : Bool) :
    (Source.json input schema).openOn files spent =
      (Json.rows schema (Utf8.encode text), spent) := by
  cases input with
  | text t =>
    obtain rfl : t = text := h
    rfl
  | path p =>
    have hread : files.read? p = some (Utf8.encode text) := h
    have hcontent : fileContent files p = .ok (Utf8.encode text) := by rw [fileContent, hread]
    simp only [openOn, items, hcontent, bind, Except.bind]

/-- **The forms of a JSON text are interchangeable.** Texts of one object each, none of which nests
    deeper than 100, are joined to an array, or stand one behind another with any blanks between
    them. Either form can be opened, as a text or as a file, and gives the same rows and failures
    with the same numbers: one for each object. An object by itself is one of these texts, and
    without objects either form has no rows. -/
theorem json_forms_alike {texts : List String}
    (h : ∀ text ∈ texts, ∃ members, Json.ofBytes (Utf8.encode text) = .ok (.object members))
    (hdepth : ∀ text ∈ texts, Json.NestsWithin 100 text) {joined : String}
    (hjoined : Json.Lines texts joined) {files : Files} {array lines : JsonInput}
    (harray : array.Gives files ("[" ++ ",".intercalate texts ++ "]"))
    (hlines : lines.Gives files joined) (schema : Schema) (spent : Bool) :
    ∃ objects, List.Forall₂ (fun text object => Json.ofBytes (Utf8.encode text) = .ok object)
        texts objects ∧
      let rows := objects.zipIdx.map fun (document, id) => Json.row schema id document
      (Source.json array schema).openOn files spent = (.ok rows, spent) ∧
        (Source.json lines schema).openOn files spent = (.ok rows, spent) := by
  obtain ⟨objects, hread⟩ := exists_mapM_eq_ok_iff.2 fun text htext =>
    (h text htext).imp' Json.object fun _ => id
  rw [mapM_eq_ok_iff] at hread
  -- each text can stand in the array and among the lines, since it nests at most 100 deep
  have hembeds : List.Forall₂ (Json.Embeds 100) texts objects := by
    obtain ⟨hlength, hzip⟩ := List.forall₂_iff_zip.1 hread
    refine List.forall₂_iff_zip.2 ⟨hlength, fun {text document} hmem => ?_⟩
    have htext := (List.of_mem_zip hmem).1
    obtain ⟨members, hobject⟩ := h text htext
    cases hobject.symm.trans (hzip hmem)
    exact Json.embeds hobject (hdepth text htext)
  -- the parser allows 128, of which the array takes one
  have hlimit : 100 < Json.depthLimit := by decide
  have harrayed := Json.rows_of_stream (Json.stream_array hlimit hembeds) schema
  have hlined := Json.rows_of_stream (Json.stream_lines hlimit hembeds hjoined) schema
  exact ⟨objects, hread, (openOn_json harray schema spent).trans (congrArg (·, spent) harrayed),
    (openOn_json hlines schema spent).trans (congrArg (·, spent) hlined)⟩

/-- Objects with a text, a bracket in a text and a null where a number is asked for. -/
theorem tallies_read_alike :
    let texts := ["\x7b\"n\": 1\x7d", "\x7b \"n\": \"]\\n\" \x7d", "\x7b\"n\": null\x7d "]
    let schema : Schema := ⟨[⟨"n", .int64⟩]⟩
    let array := Source.json (.text ("[" ++ ",".intercalate texts ++ "]")) schema
    let lines := Source.json (.text ("\n".intercalate texts)) schema
    (∀ text ∈ texts, ∃ members, Json.ofBytes (Utf8.encode text) = .ok (.object members)) ∧
      (∀ text ∈ texts, Json.NestsWithin 100 text) ∧
      array.openOn .empty false = (.ok [.ok ⟨0, [.int64 1]⟩,
        .error (.source (.cell 2 "n" "\"]\\n\"" .expectedInteger)), .ok ⟨2, [.null]⟩], false) ∧
      array.openOn .empty false = lines.openOn .empty false := by
  intro texts schema array lines
  have hobjects : ∀ text ∈ texts, ∃ members,
      Json.ofBytes (Utf8.encode text) = .ok (.object members) := by
    refine List.forall_mem_cons.2 ⟨⟨[("n", .int 1)], by cbv⟩, List.forall_mem_cons.2
      ⟨⟨[("n", .string "]\n")], by cbv⟩, List.forall_mem_singleton.2 ⟨[("n", .null)], by cbv⟩⟩⟩
  have hdepth : ∀ text ∈ texts, Json.NestsWithin 100 text := by
    refine List.forall_mem_cons.2 ⟨?_, List.forall_mem_cons.2 ⟨?_, List.forall_mem_singleton.2 ?_⟩⟩
    all_goals
      unfold Json.NestsWithin
      cbv
  have hgives (text : String) : JsonInput.Gives .empty text (.text text) := rfl
  obtain ⟨objects, -, harray, hlines⟩ := json_forms_alike hobjects hdepth
    (Json.lines_joined texts) (hgives _) (hgives _) schema false
  exact ⟨hobjects, hdepth, by cbv, harray.trans hlines.symm⟩

end Source

end RowFlow
