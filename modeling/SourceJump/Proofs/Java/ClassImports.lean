import SourceJump.Proofs.Buffer.FirstReading
import SourceJump.Proofs.Java.PackageImports

/-!
# Where a text imports a class

Which class a text imports under a name can be said without any search: the word `import` has only blanks before it
on its line and is followed by blanks, by a longest run of dotted characters that ends in a dot and the name, and by a
semicolon (`ImportsClassAt`). The reader tries the name at every dot of the run, the last one first, but only the
end of the run can succeed, since a blank or a semicolon has to follow (`readSingleImport_eq_some_iff`).
The search tries starts of lines, and the first of them that can be read leads to the first import
(`search_singleImport_eq_some_iff`).
-/

namespace SourceJump.Java

/-- The text begins with the word `import` of a declaration of the dotted name `full`, which names the class `name` of
some package; `rest` is what follows the declaration. -/
def DeclaresClass (name t full rest : Text) : Prop :=
  ∃ gap body gap' package : Text, t = importWord ++ (gap ++ body) ∧ gap ≠ [] ∧ (∀ c ∈ gap, isBlank c = true) ∧
    body.takeWhile isDottedChar = full ∧ full = package ++ CodePoint.char '.' :: name ∧ package ≠ [] ∧
    body.dropWhile isDottedChar = gap' ++ CodePoint.char ';' :: rest ∧ ∀ c ∈ gap', isBlank c = true

/-- The word `import` at the offset begins a declaration of the dotted name `full` for the class `name`, and only
blanks stand before it on its line. -/
def ImportsClassAt (t : Text) (offset : Nat) (name full : Text) : Prop :=
  EndsInBlankLine (t.take offset) ∧ ∃ rest, DeclaresClass name (t.drop offset) full rest

/-! ### Blank beginnings of lines -/

/-- Only blanks stand on the last line exactly when only blanks stand behind the start of some line. -/
theorem endsInBlankLine_iff {t : Text} : EndsInBlankLine t ↔
    ∃ before line : Text, t = before ++ line ∧ Pattern.startsLine before.getLast? = true ∧
      ∀ c ∈ line, isBlank c = true := by
  constructor
  · intro h
    refine ⟨(t.reverse.dropWhile fun c : CodePoint => c ≠ '\n').reverse, Text.lastRun (· ≠ '\n') t, ?_, ?_, h⟩
    · rw [Text.lastRun, ← List.reverse_append, List.takeWhile_append_dropWhile, List.reverse_reverse]
    · rw [List.getLast?_reverse]
      cases hrest : t.reverse.dropWhile fun c : CodePoint => decide (c ≠ '\n') with
      | nil => rfl
      | cons c rest =>
        have hc := List.head?_dropWhile_not (fun c : CodePoint => decide (c ≠ '\n')) t.reverse
        rw [hrest] at hc
        simpa [Pattern.startsLine] using hc
  · rintro ⟨before, line, rfl, hline, hblank⟩
    induction line using List.reverseRecOn with
    | nil =>
      rw [List.append_nil]
      cases before using List.reverseRecOn with
      | nil => simp [EndsInBlankLine, Text.lastRun]
      | append_singleton before c =>
        obtain rfl : c = '\n' := by simpa [Pattern.startsLine] using hline
        simp [EndsInBlankLine, Text.lastRun_append_singleton]
    | append_singleton line c ih =>
      have hrest := ih fun d hd => hblank d (List.mem_append_left _ hd)
      rw [← List.append_assoc, EndsInBlankLine, Text.lastRun_append_singleton]
      split
      · intro d hd
        rcases List.mem_append.1 hd with hd | hd
        · exact hrest d hd
        · exact hblank d (List.mem_append_right _ hd)
      · simp

/-- Blanks from an offset on do not reach beyond a character that is no blank. -/
theorem add_length_blanks_le {t : Text} {i p : Nat} (hle : i ≤ p) {c : CodePoint} (hc : (t.drop p).head? = some c)
    (hblank : isBlank c = false) : i + ((t.drop i).takeWhile isBlank).length ≤ p := by
  obtain ⟨k, rfl⟩ := Nat.exists_eq_add_of_le hle
  rw [← List.drop_drop, List.head?_drop] at hc
  by_contra hlt
  have hk : k < ((t.drop i).takeWhile isBlank).length := by omega
  have hget : ((t.drop i).takeWhile isBlank)[k] = c := by
    rw [List.IsPrefix.getElem (List.takeWhile_prefix isBlank) hk]
    exact (List.getElem?_eq_some_iff.1 hc).2
  have hmem : isBlank c = true := hget ▸ List.mem_takeWhile_imp (List.getElem_mem hk)
  rw [hblank] at hmem
  exact absurd hmem (by decide)

/-! ### One declaration -/

/-- What `readNamed` reads when it tries the name behind the first `count` characters. -/
def readNamedAt (name body : Text) (count : Nat) : Option Reading :=
  ((Text.after? (CodePoint.char '.' :: name) (body.drop count)).bind afterSemicolon?).map fun rest =>
    ⟨[body.take count ++ CodePoint.char '.' :: name], rest⟩

/-- The name is tried at one count after the other, the greatest first. -/
theorem readNamed_eq_findSome? (name body : Text) (taken : Nat) : readNamed name body taken =
    (List.range taken).reverse.findSome? fun i => readNamedAt name body (i + 1) := by
  induction taken with
  | zero => rfl
  | succ taken ih =>
    rw [readNamed, List.range_succ, List.reverse_append, List.reverse_singleton, List.singleton_append,
      List.findSome?_cons, ← ih, readNamedAt]
    cases (Text.after? (CodePoint.char '.' :: name) (body.drop (taken + 1))).bind afterSemicolon? <;> rfl

theorem readNamedAt_eq_some_iff {name body : Text} {count : Nat} {r : Reading} :
    readNamedAt name body count = some r ↔ ∃ tail, body.drop count = CodePoint.char '.' :: name ++ tail ∧
      afterSemicolon? tail = some r.rest ∧ r.groups = [body.take count ++ CodePoint.char '.' :: name] := by
  simp only [readNamedAt, Option.map_eq_some_iff, Option.bind_eq_some_iff, Text.after?_eq_some_iff]
  constructor
  · rintro ⟨rest, ⟨tail, htail, hrest⟩, rfl⟩
    exact ⟨tail, htail, hrest, rfl⟩
  · rintro ⟨tail, htail, hrest, hgroups⟩
    obtain ⟨groups, rest⟩ := r
    obtain rfl : groups = _ := hgroups
    exact ⟨rest, ⟨tail, htail, hrest⟩, rfl⟩

/-- The end of a declaration begins with no character of a dotted name. -/
theorem not_isDottedChar_of_afterSemicolon? {t rest : Text} (h : afterSemicolon? t = some rest) :
    ∀ c ∈ t.head?, isDottedChar c = false := by
  obtain ⟨gap, rfl, hgap⟩ := afterSemicolon?_eq_some_iff.1 h
  intro c hc
  cases gap with
  | nil =>
    obtain rfl : CodePoint.char ';' = c := by simpa using hc
    decide
  | cons d gap =>
    obtain rfl : d = c := by simpa using hc
    exact not_isDottedChar_of_isBlank (hgap d List.mem_cons_self)

variable {name : Text}

/-- A name that is read behind some dotted characters ends the run of dotted characters. -/
theorem run_of_readNamedAt (hname : ∀ c ∈ name, isNameChar c = true) {body : Text} {count : Nat} {r : Reading}
    (hcount : count ≤ (body.takeWhile isDottedChar).length) (h : readNamedAt name body count = some r) :
    r.groups = [body.takeWhile isDottedChar] ∧
      body.takeWhile isDottedChar = body.take count ++ CodePoint.char '.' :: name ∧
      afterSemicolon? (body.dropWhile isDottedChar) = some r.rest := by
  obtain ⟨tail, hdrop, hrest, hgroups⟩ := readNamedAt_eq_some_iff.1 h
  have hbody : body = (body.take count ++ CodePoint.char '.' :: name) ++ tail := by
    rw [List.append_assoc, ← hdrop, List.take_append_drop]
  have hdotted : ∀ c ∈ body.take count ++ CodePoint.char '.' :: name, isDottedChar c = true := by
    intro c hc
    rcases List.mem_append.1 hc with hc | hc
    · have hbegins : body.take count <+: body.takeWhile isDottedChar :=
        List.prefix_of_prefix_length_le (List.take_prefix _ _) (List.takeWhile_prefix _)
          ((List.length_take_le _ _).trans hcount)
      exact List.mem_takeWhile_imp (hbegins.subset hc)
    · rcases List.mem_cons.1 hc with rfl | hc
      · decide
      · exact isDottedChar_of_isNameChar (hname c hc)
  have hstop := not_isDottedChar_of_afterSemicolon? hrest
  have hrun := Text.takeWhile_append_of_stop hdotted hstop
  have htail := Text.dropWhile_append_of_stop hdotted hstop
  rw [← hbody] at hrun htail
  exact ⟨by rw [hgroups, hrun], hrun, by rw [htail]; exact hrest⟩

/-- Of all dots of the run only the one before its last component can succeed. -/
theorem readNamed_eq_some_iff (hname : ∀ c ∈ name, isNameChar c = true) {body : Text} {r : Reading} :
    readNamed name body (body.takeWhile isDottedChar).length = some r ↔
      ∃ package, r.groups = [body.takeWhile isDottedChar] ∧ package ≠ [] ∧
        body.takeWhile isDottedChar = package ++ CodePoint.char '.' :: name ∧
        afterSemicolon? (body.dropWhile isDottedChar) = some r.rest := by
  rw [readNamed_eq_findSome?]
  constructor
  · intro h
    obtain ⟨i, hi, hread⟩ := List.exists_of_findSome?_eq_some h
    rw [List.mem_reverse, List.mem_range] at hi
    obtain ⟨hgroups, hrun, hrest⟩ := run_of_readNamedAt hname (by omega) hread
    refine ⟨body.take (i + 1), hgroups, ?_, hrun, hrest⟩
    intro hnil
    have hlength := (List.takeWhile_prefix isDottedChar (l := body)).length_le
    have := congrArg List.length hnil
    rw [List.length_take, List.length_nil] at this
    omega
  · rintro ⟨package, hgroups, hne, hrun, hrest⟩
    have hpos := List.length_pos_iff.2 hne
    have hlength : (body.takeWhile isDottedChar).length = package.length + (name.length + 1) := by
      rw [hrun, List.length_append, List.length_cons]
    have hbody : body = package ++ (CodePoint.char '.' :: name ++ body.dropWhile isDottedChar) := by
      rw [← List.append_assoc, ← hrun, List.takeWhile_append_dropWhile]
    have htake : body.take package.length = package := by rw [hbody, List.take_left]
    have hdrop : body.drop package.length = CodePoint.char '.' :: name ++ body.dropWhile isDottedChar := by
      rw [hbody, List.drop_left, ← hbody]
    have hread : readNamedAt name body package.length = some r :=
      readNamedAt_eq_some_iff.2 ⟨_, hdrop, hrest, by rw [hgroups, hrun, htake]⟩
    cases hfind : (List.range (body.takeWhile isDottedChar).length).reverse.findSome?
        fun i => readNamedAt name body (i + 1) with
    | none =>
      have hmissed := List.findSome?_eq_none_iff.1 hfind (package.length - 1)
        (by rw [List.mem_reverse, List.mem_range]; omega)
      rw [Nat.sub_add_cancel hpos, hread] at hmissed
      cases hmissed
    | some r' =>
      -- Another success would read the same run and the same end.
      obtain ⟨i, hi, hread'⟩ := List.exists_of_findSome?_eq_some hfind
      rw [List.mem_reverse, List.mem_range] at hi
      obtain ⟨hgroups', -, hrest'⟩ := run_of_readNamedAt hname (by omega) hread'
      obtain ⟨groups, rest⟩ := r
      obtain ⟨groups', rest'⟩ := r'
      obtain rfl : groups' = groups := hgroups'.trans hgroups.symm
      obtain rfl : rest' = rest := Option.some.inj (hrest'.symm.trans hrest)
      rfl

/-- Reading a declaration skips blanks and then finds one at the front. -/
theorem readSingleImport_eq_some_iff (hname : ∀ c ∈ name, isNameChar c = true) {t : Text} {r : Reading} :
    readSingleImport name t = some r ↔
      ∃ full, r.groups = [full] ∧ DeclaresClass name (t.dropWhile isBlank) full r.rest := by
  have hread : readSingleImport name t = (afterImport? t).bind fun body =>
    readNamed name body (body.takeWhile isDottedChar).length := rfl
  rw [hread]
  constructor
  · intro h
    obtain ⟨body, hbody, h⟩ := Option.bind_eq_some_iff.1 h
    obtain ⟨package, hgroups, hne, hrun, hrest⟩ := (readNamed_eq_some_iff hname).1 h
    obtain ⟨after, hafter, hblanks⟩ := Option.bind_eq_some_iff.1 hbody
    obtain ⟨gap, rfl, hgapne, hgap⟩ := exists_of_afterBlanks? hblanks
    obtain ⟨gap', hgap', hblank'⟩ := afterSemicolon?_eq_some_iff.1 hrest
    exact ⟨_, hgroups, gap, body, gap', package, Text.after?_eq_some_iff.1 hafter, hgapne, hgap, rfl, hrun, hne,
      hgap', hblank'⟩
  · rintro ⟨full, hgroups, gap, body, gap', package, ht, hgapne, hgap, rfl, hrun, hne, htail, hgap'⟩
    have hbody := head?_not_blank_of_run (t := body) (by rw [hrun]; simp)
    have hafter : afterImport? t = some body := by
      rw [afterImport?, Text.after?_eq_some_iff.2 ht]
      exact afterBlanks?_eq_some hgapne hgap hbody
    rw [hafter]
    exact (readNamed_eq_some_iff hname).2
      ⟨package, hgroups, hne, hrun, afterSemicolon?_eq_some_iff.2 ⟨gap', htail, hgap'⟩⟩

theorem DeclaresClass.head? {t full rest : Text} (h : DeclaresClass name t full rest) :
    t.head? = some (CodePoint.char 'i') := by
  obtain ⟨gap, body, gap', package, rfl, -⟩ := h
  rfl

theorem DeclaresClass.dropWhile_isBlank {t full rest : Text} (h : DeclaresClass name t full rest) :
    t.dropWhile isBlank = t := by
  obtain ⟨gap, body, gap', package, rfl, -⟩ := h
  exact List.dropWhile_cons_of_neg (by decide)

/-- A place declares one name only. -/
theorem ImportsClassAt.unique (hname : ∀ c ∈ name, isNameChar c = true) {t full full' : Text} {p : Nat}
    (h : ImportsClassAt t p name full) (h' : ImportsClassAt t p name full') : full = full' := by
  obtain ⟨-, rest, h⟩ := h
  obtain ⟨-, rest', h'⟩ := h'
  have hread : readSingleImport name (t.drop p) = some ⟨[full], rest⟩ :=
    (readSingleImport_eq_some_iff hname).2 ⟨full, rfl, by rw [h.dropWhile_isBlank]; exact h⟩
  have hread' : readSingleImport name (t.drop p) = some ⟨[full'], rest'⟩ :=
    (readSingleImport_eq_some_iff hname).2 ⟨full', rfl, by rw [h'.dropWhile_isBlank]; exact h'⟩
  have hsame := Option.some.inj (hread.symm.trans hread')
  exact (List.cons.inj (Reading.mk.inj hsame).1).1

/-! ### Starts of lines and places of the word `import` -/

theorem readFrom_singleImport {t : Text} {i : Nat} {r : Reading} : (singleImport name).readFrom t i = some r ↔
    Pattern.startsLine (t.take i).getLast? = true ∧ readSingleImport name (t.drop i) = some r :=
  Pattern.readFrom_onLineStart

/-- A line that can be read leads to the import behind its leading blanks. -/
theorem importsClassAt_of_readFrom (hname : ∀ c ∈ name, isNameChar c = true) {t : Text} {i : Nat} {r : Reading}
    (h : (singleImport name).readFrom t i = some r) : ∃ full, r.groups = [full] ∧
      ImportsClassAt t (i + ((t.drop i).takeWhile isBlank).length) name full := by
  obtain ⟨hline, hread⟩ := readFrom_singleImport.1 h
  obtain ⟨full, hgroups, hd⟩ := (readSingleImport_eq_some_iff hname).1 hread
  refine ⟨full, hgroups, endsInBlankLine_iff.2 ⟨t.take i, (t.drop i).takeWhile isBlank, ?_, hline, fun c hc =>
    List.mem_takeWhile_imp hc⟩, r.rest, ?_⟩
  · rw [List.take_add, Text.take_length_takeWhile]
  · rw [← List.drop_drop, Text.drop_length_takeWhile]
    exact hd

/-- An import is read from the start of a line before it, its own line at the latest. -/
theorem exists_readFrom_of_importsClassAt (hname : ∀ c ∈ name, isNameChar c = true) {t full : Text} {p : Nat}
    (h : ImportsClassAt t p name full) : ∃ i ≤ p, i ≤ t.length ∧ ∃ r, (singleImport name).readFrom t i = some r := by
  obtain ⟨hline, rest, hd⟩ := h
  obtain ⟨before, line, htake, hstart, hblank⟩ := endsInBlankLine_iff.1 hline
  have ht : t = before ++ (line ++ t.drop p) := by
    rw [← List.append_assoc, ← htake, List.take_append_drop]
  have hlength := congrArg List.length htake
  rw [List.length_take, List.length_append] at hlength
  have hbefore : t.take before.length = before := by
    conv_lhs => rw [ht]
    exact List.take_left
  have hdrop : t.drop before.length = line ++ t.drop p := by
    conv_lhs => rw [ht]
    exact List.drop_left
  refine ⟨before.length, by omega, by omega, ⟨[full], rest⟩, readFrom_singleImport.2 ⟨by rw [hbefore]; exact hstart, ?_⟩⟩
  refine (readSingleImport_eq_some_iff hname).2 ⟨full, rfl, ?_⟩
  rw [hdrop, List.dropWhile_append_of_pos hblank, hd.dropWhile_isBlank]
  exact hd

/-- No import stands before the one that a match leads to: a line before it that leads to another one would be
matched. -/
theorem place_le_of_search (hname : ∀ c ∈ name, isNameChar c = true) {t full : Text} {m : Match} {p : Nat}
    (hm : (singleImport name).search t 0 = some m) (h : ImportsClassAt t p name full) :
    m.start + ((t.drop m.start).takeWhile isBlank).length ≤ p := by
  obtain ⟨-, -, -, -, -, -, hbefore⟩ := Pattern.search_eq_some_iff.1 hm
  obtain ⟨i, hi, -, r, hr⟩ := exists_readFrom_of_importsClassAt hname h
  have hle : m.start ≤ i := by
    by_contra hlt
    rw [hbefore i (by omega) (by omega)] at hr
    cases hr
  obtain ⟨-, rest, hd⟩ := h
  exact add_length_blanks_le (hle.trans hi) hd.head? (by decide)

/-- A match leads to the first import. -/
theorem first_of_search_singleImport (hname : ∀ c ∈ name, isNameChar c = true) {t : Text} {m : Match}
    (hm : (singleImport name).search t 0 = some m) : ∃ p full, m.groups = [full] ∧ ImportsClassAt t p name full ∧
      ∀ p' full', ImportsClassAt t p' name full' → p ≤ p' := by
  obtain ⟨r, hr, -, hgroups, -⟩ := Pattern.search_eq_some_iff.1 hm
  obtain ⟨full, hfull, himport⟩ := importsClassAt_of_readFrom hname hr
  exact ⟨_, full, hgroups.trans hfull, himport, fun p' full' h' => place_le_of_search hname hm h'⟩

/-- Where there is an import there is a match. -/
theorem search_singleImport_ne_none (hname : ∀ c ∈ name, isNameChar c = true) {t full : Text} {p : Nat}
    (h : ImportsClassAt t p name full) : (singleImport name).search t 0 ≠ none := by
  intro hnone
  obtain ⟨i, -, hlength, r, hr⟩ := exists_readFrom_of_importsClassAt hname h
  rw [Pattern.search_eq_none_iff.1 hnone i (by omega) hlength] at hr
  cases hr

/-- What is matched is the first import. -/
theorem search_singleImport_eq_some_iff (hname : ∀ c ∈ name, isNameChar c = true) {t full : Text} :
    (∃ m, (singleImport name).search t 0 = some m ∧ m.groups = [full]) ↔
      ∃ p, ImportsClassAt t p name full ∧ ∀ p' full', ImportsClassAt t p' name full' → p ≤ p' := by
  constructor
  · rintro ⟨m, hm, hgroups⟩
    obtain ⟨p, full', hfull', himport, hleast⟩ := first_of_search_singleImport hname hm
    obtain rfl : full' = full := by simpa using hfull'.symm.trans hgroups
    exact ⟨p, himport, hleast⟩
  · rintro ⟨p, himport, hleast⟩
    obtain ⟨m, hm⟩ := Option.ne_none_iff_exists'.1 (search_singleImport_ne_none hname himport)
    obtain ⟨p', full', hfull', himport', hleast'⟩ := first_of_search_singleImport hname hm
    obtain rfl : p' = p := Nat.le_antisymm (hleast' p full himport) (hleast p' full' himport')
    exact ⟨m, hm, hfull'.trans (by rw [himport'.unique hname himport])⟩

end SourceJump.Java
