import RowFlow.Proofs.Json.Scalars

/-!
# Containers Read Back

A container is written as its parts between two brackets. If a reader takes the text of each part
for the part, the reader of arrays takes the text of all of them for their list, and the readers of
variants and of records do likewise (`Json.reads_arrayOf`, `Json.Reads.variant`,
`Json.Fills.reads`).
-/

namespace RowFlow

namespace Json

/-! ## Texts of containers -/

/-- The bytes of all parts but the first one, each behind its comma. -/
def laterParts (texts : List String) : List UInt8 :=
  texts.flatMap fun text => ','.toUInt8 :: Utf8.encode text

theorem laterParts_cons (text : String) (texts : List String) :
    laterParts (text :: texts) = ','.toUInt8 :: (Utf8.encode text ++ laterParts texts) := by
  rw [laterParts, List.flatMap_cons]
  rfl

/-- There are at least as many bytes as parts, since each part has its comma. -/
theorem length_le_laterParts (texts : List String) : texts.length ≤ (laterParts texts).length := by
  induction texts with
  | nil => exact Nat.zero_le _
  | cons text texts ih =>
    rw [laterParts_cons, List.length_cons, List.length_cons, List.length_append]
    omega

/-- A part is followed by the comma of the next one, or by what follows them all. -/
theorem delimited_laterParts (texts : List String) {rest : List UInt8} (h : Delimited rest) :
    Delimited (laterParts texts ++ rest) := by
  cases texts with
  | nil => exact h
  | cons text texts => exact delimited_cons (.inl rfl) _

/-- Texts with commas between them are the first one and all later ones behind their commas. -/
theorem encode_intercalate (text : String) (texts : List String) :
    Utf8.encode (",".intercalate (text :: texts)) = Utf8.encode text ++ laterParts texts := by
  rw [Utf8.encode, String.toList_intercalate]
  induction texts generalizing text with
  | nil =>
    rw [List.map_cons, List.map_nil, List.intercalate_singleton]
    exact (List.append_nil _).symm
  | cons next texts ih =>
    have ih := ih next
    rw [List.map_cons] at ih
    rw [List.map_cons, List.map_cons, List.intercalate_cons_cons, List.flatMap_append,
      List.flatMap_append, ih, laterParts_cons, List.append_assoc]
    rfl

/-- The bytes of a container that is not empty. -/
theorem encode_between (opening text : String) (texts : List String) (closing : String) :
    Utf8.encode (between opening (text :: texts) closing) =
      Utf8.encode opening ++ (Utf8.encode text ++ laterParts texts ++ Utf8.encode closing) := by
  rw [between, Utf8.encode_append, Utf8.encode_append, encode_intercalate, List.append_assoc]

/-! ## Arrays -/

/-- A text that starts like a value is the first item of an array. -/
theorem nextItem?_first {text : String} (h : Starts text) (rest : List UInt8) :
    nextItem? true (Utf8.encode text ++ rest) = .ok (some (Utf8.encode text ++ rest)) := by
  obtain ⟨b, bytes, htext, hblank, hend⟩ := h
  rw [htext, List.cons_append, nextItem?, skipBlanks_cons hblank]
  dsimp only
  rw [if_neg hend, if_pos rfl]

/-- Behind a comma it is a later item. -/
theorem nextItem?_later {text : String} (h : Starts text) (rest : List UInt8) :
    nextItem? false (','.toUInt8 :: (Utf8.encode text ++ rest)) =
      .ok (some (Utf8.encode text ++ rest)) := by
  obtain ⟨b, bytes, htext, hblank, hend⟩ := h
  have hcomma : ','.toUInt8 ≠ ']'.toUInt8 := by decide
  rw [htext, List.cons_append, nextItem?, skipBlanks_cons rfl]
  dsimp only
  rw [if_neg hcomma, if_neg Bool.false_ne_true, if_pos rfl, skipBlanks_cons hblank]
  exact if_neg hend

variable {α : Type} {item : Reader α} {write : α → String}

theorem itemsOf_end (first : Bool) (fuel : Nat) (rest : List UInt8) :
    itemsOf item (fuel + 1) first (']'.toUInt8 :: rest) = .ok ([], rest) := rfl

/-- The later items are read up to the bracket that closes the array. -/
theorem itemsOf_laterParts {items : List α} (h : ∀ a ∈ items, Reads item (write a) a) {fuel : Nat}
    (hfuel : items.length < fuel) (rest : List UInt8) :
    itemsOf item fuel false (laterParts (items.map write) ++ ']'.toUInt8 :: rest) =
      .ok (items, rest) := by
  induction items generalizing fuel with
  | nil =>
    obtain ⟨fuel, rfl⟩ := Nat.exists_eq_add_one_of_ne_zero (Nat.ne_of_gt hfuel)
    exact itemsOf_end false fuel rest
  | cons a items ih =>
    obtain ⟨fuel, rfl⟩ := Nat.exists_eq_add_one_of_ne_zero (Nat.ne_of_gt (Nat.zero_lt_of_lt hfuel))
    obtain ⟨ha, hitems⟩ := List.forall_mem_cons.1 h
    -- the item is followed by the next comma or by the bracket
    have hrest := delimited_laterParts (items.map write) (delimited_cons (.inr (.inl rfl)) rest)
    rw [List.map_cons, laterParts_cons, List.cons_append, List.append_assoc, itemsOf,
      nextItem?_later ha.starts]
    simp only [bind, Except.bind, ha.reads _ hrest, ih hitems (Nat.lt_of_succ_lt_succ hfuel)]
    rfl

/-- Behind its bracket an array has as many steps as it has bytes. -/
theorem arrayOf_opened (bytes : List UInt8) :
    arrayOf item ('['.toUInt8 :: bytes) = itemsOf item (bytes.length + 2) true bytes := by
  rw [arrayOf, startingWith_cons rfl rfl]
  rfl

/-- An array of texts that are read as items is read as the list of the items. -/
theorem reads_arrayOf {items : List α} (h : ∀ a ∈ items, Reads item (write a) a) :
    Reads (arrayOf item) (between "[" (items.map write) "]") items := by
  cases items with
  | nil =>
    have htext : Utf8.encode (between "[" [] "]") = ['['.toUInt8, ']'.toUInt8] := by decide
    refine ⟨⟨'['.toUInt8, _, htext, rfl, by decide⟩, fun rest _ => ?_⟩
    rw [List.map_nil, htext]
    exact (arrayOf_opened _).trans (itemsOf_end true _ rest)
  | cons a items =>
    obtain ⟨ha, hitems⟩ := List.forall_mem_cons.1 h
    have htext := encode_between "[" (write a) (items.map write) "]"
    refine ⟨⟨'['.toUInt8, _, htext, rfl, by decide⟩, fun rest _ => ?_⟩
    -- the reader makes a step for each item, and there are more bytes than items
    have hlength := length_le_laterParts (items.map write)
    rw [List.length_map] at hlength
    have hbytes : Utf8.encode (between "[" (write a :: items.map write) "]") ++ rest =
        '['.toUInt8 :: (Utf8.encode (write a) ++
          (laterParts (items.map write) ++ ']'.toUInt8 :: rest)) := by
      rw [htext]
      simp only [List.append_assoc]
      rfl
    have hrest := delimited_laterParts (items.map write) (delimited_cons (.inr (.inl rfl)) rest)
    have hfuel : items.length < (Utf8.encode (write a) ++
        (laterParts (items.map write) ++ ']'.toUInt8 :: rest)).length + 1 := by
      rw [List.length_append, List.length_append]
      omega
    -- the first item is read without a comma, and the others behind theirs
    rw [List.map_cons, hbytes, arrayOf_opened, itemsOf, nextItem?_first ha.starts]
    simp only [bind, Except.bind, ha.reads _ hrest, itemsOf_laterParts hitems hfuel]
    rfl

/-! ## Variants -/

/-- The text of a named part of an object. -/
def memberText (name text : String) : String := stringText name ++ ":" ++ text

/-- The name of a part is quoted, and a colon stands behind it. -/
theorem encode_memberText (name text : String) :
    Utf8.encode (memberText name text) =
      '"'.toUInt8 :: (quotedBody name ++ ':'.toUInt8 :: Utf8.encode text) := by
  rw [memberText, Utf8.encode_append, Utf8.encode_append, encode_stringText, List.append_assoc]
  rfl

/-- A mark is read where it stands. -/
theorem mark_cons {c : Char} (h : isBlank c.toUInt8 = false) (rest : List UInt8) :
    mark c (c.toUInt8 :: rest) = .ok ((), rest) := by
  rw [mark, skipBlanks_cons h]
  exact if_pos rfl

/-- A variant that holds nothing is written as its name. -/
theorem reads_bare {nested : Bool} {bare : String → Option α}
    {holding : String → Option (Reader α)} {name : String} {value : α}
    (h : bare name = some value) :
    Reads (variantOf nested bare holding) (stringText name) value where
  starts := starts_stringText name
  reads rest _ := by
    rw [encode_stringText, List.cons_append, variantOf, skipBlanks_cons rfl]
    dsimp only
    rw [if_pos rfl, stringBody_quotedBody]
    simp only [bind, Except.bind, h]
    rfl

/-- A variant that holds something is an object with its name as the only part. -/
theorem Reads.variant {bare : String → Option α} {holding : String → Option (Reader α)}
    {name text : String} {reader : Reader α} {value : α} (h : Reads reader text value)
    (hname : holding name = some reader) :
    Reads (variantOf true bare holding) (tagged name text) value := by
  have htext : Utf8.encode (tagged name text) = '\x7b'.toUInt8 :: '"'.toUInt8 ::
      (quotedBody name ++ ':'.toUInt8 :: (Utf8.encode text ++ ['\x7d'.toUInt8])) := by
    have hbetween := encode_between "\x7b" (memberText name text) [] "\x7d"
    rw [encode_memberText] at hbetween
    refine hbetween.trans ?_
    simp only [List.append_assoc, List.cons_append]
    rfl
  refine ⟨⟨'\x7b'.toUInt8, _, htext, rfl, by decide⟩, fun rest _ => ?_⟩
  -- the brace tells the reader that the variant holds something
  have hquote : '\x7b'.toUInt8 ≠ '"'.toUInt8 := by decide
  rw [htext]
  simp only [List.cons_append, List.append_assoc, List.nil_append]
  rw [variantOf, skipBlanks_cons rfl]
  dsimp only
  rw [if_neg hquote, if_pos rfl, if_neg (by decide), mark_cons rfl]
  simp only [bind, Except.bind, pure, Except.pure]
  -- behind the brace come the name, a colon, what the variant holds, and the other brace
  rw [stringBody_quotedBody]
  simp only [hname]
  rw [mark_cons rfl]
  simp only [h.reads _ (delimited_cons (.inr (.inr rfl)) rest)]
  rw [mark_cons rfl]

/-! ## Records -/

variable {σ : Type} {format : List (Member σ)}

/-- The texts of the named parts of an object. -/
def partTexts (parts : List (String × String)) : List String :=
  parts.map fun part => memberText part.1 part.2

theorem partTexts_nil : partTexts [] = [] := rfl

theorem partTexts_cons (name text : String) (parts : List (String × String)) :
    partTexts ((name, text) :: parts) = memberText name text :: partTexts parts := rfl

/-- There are at least as many bytes as named parts. -/
theorem length_le_partTexts (parts : List (String × String)) :
    parts.length ≤ (laterParts (partTexts parts)).length := by
  have hlength := length_le_laterParts (partTexts parts)
  rwa [partTexts, List.length_map] at hlength

/-- The texts of named parts lead the reader of a format from one state to another: each part has a
    member of its name that has not been read yet. -/
inductive Fills (format : List (Member σ)) : σ → List (String × String) → σ → Prop
  | done (state : σ) : Fills format state [] state
  | next {state after last : σ} {name text : String} {parts : List (String × String)}
      {member : Member σ} (hmember : format.find? (·.name == name) = some member)
      (hread : member.isRead state = false) (h : Reads (member.read state) text after)
      (hparts : Fills format after parts last) : Fills format state ((name, text) :: parts) last

/-- The reader of members reads one of them and goes on with what follows it. -/
theorem membersOf_member {state after : σ} {name text : String} {member : Member σ} {first : Bool}
    {bytes more : List UInt8} (hmember : format.find? (·.name == name) = some member)
    (hread : member.isRead state = false) (h : Reads (member.read state) text after)
    (hmore : Delimited more)
    (hbytes : nextName? first bytes =
      .ok (some (quotedBody name ++ ':'.toUInt8 :: (Utf8.encode text ++ more)))) (fuel : Nat) :
    membersOf format (fuel + 1) first state bytes = membersOf format fuel false after more := by
  rw [membersOf, hbytes]
  simp only [bind, Except.bind, stringBody_quotedBody, hmember, hread, Bool.false_eq_true, if_false]
  rw [mark_cons rfl]
  simp only [h.reads _ hmore]

theorem membersOf_end (first : Bool) (fuel : Nat) (state : σ) (rest : List UInt8) :
    membersOf format (fuel + 1) first state ('\x7d'.toUInt8 :: rest) =
      .ok (state, '\x7d'.toUInt8 :: rest) := rfl

/-- The later parts lead the reader to its last state, at the brace that closes the object. -/
theorem Fills.membersOf_laterParts {state last : σ} {parts : List (String × String)}
    (h : Fills format state parts last) {fuel : Nat} (hfuel : parts.length < fuel)
    (rest : List UInt8) :
    membersOf format fuel false state (laterParts (partTexts parts) ++ '\x7d'.toUInt8 :: rest) =
      .ok (last, '\x7d'.toUInt8 :: rest) := by
  -- one step of the reader for each part
  induction h generalizing fuel with
  | done state =>
    obtain ⟨fuel, rfl⟩ := Nat.exists_eq_add_one_of_ne_zero (Nat.ne_of_gt hfuel)
    exact membersOf_end false fuel state rest
  | @next state after last name text parts member hmember hread h hparts ih =>
    obtain ⟨fuel, rfl⟩ := Nat.exists_eq_add_one_of_ne_zero (Nat.ne_of_gt (Nat.zero_lt_of_lt hfuel))
    -- the first part is read up to the comma or the brace behind it
    have hmore := delimited_laterParts (partTexts parts) (delimited_cons (.inr (.inr rfl)) rest)
    rw [← ih (Nat.lt_of_succ_lt_succ hfuel)]
    refine membersOf_member hmember hread h hmore ?_ fuel
    rw [partTexts_cons, laterParts_cons, encode_memberText]
    simp only [List.append_assoc, List.cons_append]
    rfl

/-- An object is read as a record if its members lead to a state that makes up one. -/
theorem recordOf_of_membersOf {start last : σ} {finish : σ → Option α} {value : α}
    {bytes rest : List UInt8}
    (h : membersOf format (bytes.length + 2) true start bytes = .ok (last, '\x7d'.toUInt8 :: rest))
    (hfinish : finish last = some value) :
    recordOf format start finish ('\x7b'.toUInt8 :: bytes) = .ok (value, rest) := by
  -- a record may be written as an array, too, but a brace is no bracket
  have hobject : ¬ ('\x7b'.toUInt8 :: bytes).head? = some '['.toUInt8 := by
    rw [List.head?_cons]
    exact mt Option.some.inj (by decide)
  rw [recordOf, startingWith_cons rfl rfl, if_neg hobject, List.length_cons, List.tail_cons, h]
  simp only [bind, Except.bind, hfinish]
  rfl

/-- A record whose parts fill the format is read as what the last state makes up. -/
theorem Fills.reads {start last : σ} {parts : List (String × String)} {finish : σ → Option α}
    {value : α} (h : Fills format start parts last) (hfinish : finish last = some value) :
    Reads (recordOf format start finish) (between "\x7b" (partTexts parts) "\x7d") value := by
  cases h with
  | done state =>
    have htext : Utf8.encode (between "\x7b" [] "\x7d") = ['\x7b'.toUInt8, '\x7d'.toUInt8] := by
      decide
    refine ⟨⟨'\x7b'.toUInt8, _, htext, rfl, by decide⟩, fun rest _ => ?_⟩
    rw [partTexts_nil, htext]
    exact recordOf_of_membersOf (membersOf_end true _ _ rest) hfinish
  | @next state after last name text parts member hmember hread h hparts =>
    have htext := encode_between "\x7b" (memberText name text) (partTexts parts) "\x7d"
    refine ⟨⟨'\x7b'.toUInt8, _, htext, rfl, by decide⟩, fun rest _ => ?_⟩
    have hmore := delimited_laterParts (partTexts parts) (delimited_cons (.inr (.inr rfl)) rest)
    have hlength := length_le_partTexts parts
    have hbytes : Utf8.encode (between "\x7b" (memberText name text :: partTexts parts) "\x7d") ++
        rest = '\x7b'.toUInt8 :: '"'.toUInt8 :: (quotedBody name ++ ':'.toUInt8 ::
          (Utf8.encode text ++ (laterParts (partTexts parts) ++ '\x7d'.toUInt8 :: rest))) := by
      rw [htext, encode_memberText]
      simp only [List.append_assoc, List.cons_append]
      rfl
    rw [partTexts_cons, hbytes]
    refine recordOf_of_membersOf ?_ hfinish
    -- the first part has no comma in front of it, and the others have one each
    rw [membersOf_member hmember hread h hmore rfl]
    refine hparts.membersOf_laterParts ?_ rest
    simp only [List.length_cons, List.length_append]
    omega

end Json

end RowFlow
