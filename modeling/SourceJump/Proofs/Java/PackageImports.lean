import SourceJump.Java.Import
import SourceJump.Proofs.Text.Classes
import Mathlib.Data.List.Induction

/-!
# Where a text imports a package

Which packages a text imports can be said without any search: a declaration stands wherever the
word `import` has only blanks before it on its line and is followed by blanks, a longest run of
dotted characters that ends in a dot, an asterisk and a semicolon (`ImportsPackageAt`). One pass over
the text that knows whether only blanks were met on the line so far lists these places in order
(`packageImports`, `mem_packageImports`).

A pass that meets a declaration lists it and then nothing of what the declaration covers
(`DeclaresPackage.packageImportsFrom`), so no two declarations overlap.
-/

namespace SourceJump.Java

/-- The text begins with the word `import` of a declaration for the classes of `package`; `rest` is
what follows the declaration. -/
def DeclaresPackage (t package rest : Text) : Prop :=
  ∃ gap body gap' : Text, t = importWord ++ (gap ++ body) ∧ gap ≠ [] ∧ (∀ c ∈ gap, isBlank c = true) ∧
    body.takeWhile isDottedChar = package ++ [CodePoint.char '.'] ∧ package ≠ [] ∧
    body.dropWhile isDottedChar = CodePoint.char '*' :: (gap' ++ CodePoint.char ';' :: rest) ∧
    ∀ c ∈ gap', isBlank c = true

/-- Only blanks stand on the last line of the text. -/
def EndsInBlankLine (t : Text) : Prop := ∀ c ∈ Text.lastRun (· ≠ '\n') t, isBlank c = true

/-- The word `import` at the offset begins a declaration for the classes of `package`, and only blanks
stand before it on its line. -/
def ImportsPackageAt (t : Text) (offset : Nat) (package : Text) : Prop :=
  EndsInBlankLine (t.take offset) ∧ ∃ rest, DeclaresPackage (t.drop offset) package rest

/-! ### Readers, said without recursion -/

theorem afterBlanks?_eq (t : Text) :
    afterBlanks? t = if t.takeWhile isBlank = [] then none else some (t.dropWhile isBlank) := by
  cases t with
  | nil => rfl
  | cons c t =>
    rw [afterBlanks?]
    by_cases hc : isBlank c = true
    · simp [hc]
    · simp [hc]

theorem afterBlanks?_eq_some {gap body : Text} (hne : gap ≠ []) (hgap : ∀ c ∈ gap, isBlank c = true)
    (hbody : ∀ c ∈ body.head?, isBlank c = false) : afterBlanks? (gap ++ body) = some body := by
  rw [afterBlanks?_eq, Text.takeWhile_append_of_stop hgap hbody, if_neg hne, Text.dropWhile_append_of_stop hgap hbody]

theorem exists_of_afterBlanks? {t body : Text} (h : afterBlanks? t = some body) :
    ∃ gap : Text, t = gap ++ body ∧ gap ≠ [] ∧ (∀ c ∈ gap, isBlank c = true) := by
  rw [afterBlanks?_eq] at h
  split at h
  · cases h
  · next hne =>
    obtain rfl := Option.some.inj h
    exact ⟨t.takeWhile isBlank, List.takeWhile_append_dropWhile.symm, hne, fun c hc => List.mem_takeWhile_imp hc⟩

theorem afterImport?_eq_some {blanks gap body : Text} (hblanks : ∀ c ∈ blanks, isBlank c = true) (hne : gap ≠ [])
    (hgap : ∀ c ∈ gap, isBlank c = true) (hbody : ∀ c ∈ body.head?, isBlank c = false) :
    afterImport? (blanks ++ (importWord ++ (gap ++ body))) = some body := by
  have hword : ∀ c ∈ (importWord ++ (gap ++ body)).head?, isBlank c = false := by
    intro c hc
    obtain rfl : CodePoint.char 'i' = c := by simpa [importWord] using hc
    decide
  rw [afterImport?, Text.dropWhile_append_of_stop hblanks hword, Text.after?_eq_some_iff.2 rfl, Option.bind_some,
    afterBlanks?_eq_some hne hgap hbody]

theorem exists_of_afterImport? {t body : Text} (h : afterImport? t = some body) :
    ∃ blanks gap : Text, t = blanks ++ (importWord ++ (gap ++ body)) ∧ (∀ c ∈ blanks, isBlank c = true) ∧ gap ≠ [] ∧
      ∀ c ∈ gap, isBlank c = true := by
  obtain ⟨after, hafter, hbody⟩ := Option.bind_eq_some_iff.1 h
  obtain ⟨gap, rfl, hne, hgap⟩ := exists_of_afterBlanks? hbody
  refine ⟨t.takeWhile isBlank, gap, ?_, fun c hc => List.mem_takeWhile_imp hc, hne, hgap⟩
  rw [← Text.after?_eq_some_iff.1 hafter, List.takeWhile_append_dropWhile]

theorem afterSemicolon?_eq_some_iff {t rest : Text} :
    afterSemicolon? t = some rest ↔
      ∃ gap : Text, t = gap ++ CodePoint.char ';' :: rest ∧ ∀ c ∈ gap, isBlank c = true := by
  unfold afterSemicolon?
  constructor
  · intro h
    split at h
    · next tail htail =>
      obtain rfl := Option.some.inj h
      refine ⟨t.takeWhile isBlank, ?_, fun d hd => List.mem_takeWhile_imp hd⟩
      rw [← htail, List.takeWhile_append_dropWhile]
    · simp at h
  · rintro ⟨gap, rfl, hgap⟩
    rw [Text.dropWhile_append_of_stop hgap (by simp; decide)]
    rfl

/-- What `readWildcard` reads behind the blanks after `import`. -/
def readPackage (body : Text) : Option Reading := do
  let run := body.takeWhile isDottedChar
  let tail ← Text.after? ['*'] (body.dropWhile isDottedChar)
  let rest ← afterSemicolon? tail
  if run.getLast? = some '.' && 1 < run.length then some ⟨[run.dropLast], rest⟩ else none

theorem readWildcard_eq_bind (t : Text) : readWildcard t = (afterImport? t).bind readPackage := rfl

theorem readPackage_eq_some_iff {body : Text} {r : Reading} : readPackage body = some r ↔
    ∃ package tail, r.groups = [package] ∧ package ≠ [] ∧
      body.takeWhile isDottedChar = package ++ [CodePoint.char '.'] ∧
      body.dropWhile isDottedChar = CodePoint.char '*' :: tail ∧ afterSemicolon? tail = some r.rest := by
  constructor
  · intro h
    obtain ⟨tail, htail, h⟩ := Option.bind_eq_some_iff.1 h
    obtain ⟨rest, hrest, h⟩ := Option.bind_eq_some_iff.1 h
    split at h
    · next hrun =>
      obtain rfl := Option.some.inj h
      rw [Bool.and_eq_true, decide_eq_true_eq, decide_eq_true_eq] at hrun
      refine ⟨_, tail, rfl, ?_, (List.dropLast_append_getLast? _ hrun.1).symm, Text.after?_eq_some_iff.1 htail, hrest⟩
      intro hnil
      have := congrArg List.length hnil
      rw [List.length_dropLast, List.length_nil] at this
      omega
    · simp at h
  · rintro ⟨package, tail, hgroups, hpackage, hrun, htail, hrest⟩
    obtain ⟨groups, rest⟩ := r
    obtain rfl : groups = [package] := hgroups
    have hstar : Text.after? [CodePoint.char '*'] (CodePoint.char '*' :: tail) = some tail :=
      Text.after?_eq_some_iff.2 rfl
    have hlast : (package ++ [CodePoint.char '.']).getLast? = pure (CodePoint.char '.') := List.getLast?_concat
    have hlength : 1 < (package ++ [CodePoint.char '.']).length := by
      have := List.length_pos_iff.2 hpackage
      rw [List.length_append, List.length_singleton]
      omega
    simp only [readPackage, hrun, htail, hstar, hrest, hlast, hlength, Option.bind_eq_bind, Option.bind_some,
      decide_true, Bool.and_self, if_true, List.dropLast_concat]

/-- Reading a declaration skips blanks and then finds one at the front. -/
theorem readWildcard_eq_some_iff {t : Text} {r : Reading} :
    readWildcard t = some r ↔ ∃ package, r.groups = [package] ∧
      DeclaresPackage (t.dropWhile isBlank) package r.rest := by
  rw [readWildcard_eq_bind]
  constructor
  · intro h
    obtain ⟨body, hbody, h⟩ := Option.bind_eq_some_iff.1 h
    obtain ⟨package, tail, hgroups, hpackage, hrun, htail, hrest⟩ := readPackage_eq_some_iff.1 h
    obtain ⟨after, hafter, hblanks⟩ := Option.bind_eq_some_iff.1 hbody
    obtain ⟨gap, rfl, hne, hgap⟩ := exists_of_afterBlanks? hblanks
    obtain ⟨gap', rfl, hgap'⟩ := afterSemicolon?_eq_some_iff.1 hrest
    exact ⟨package, hgroups, gap, body, gap', Text.after?_eq_some_iff.1 hafter, hne, hgap, hrun, hpackage, htail, hgap'⟩
  · rintro ⟨package, hgroups, gap, body, gap', ht, hne, hgap, hrun, hpackage, htail, hgap'⟩
    have hbody := head?_not_blank_of_run (t := body) (by rw [hrun]; simp)
    have hafter : afterImport? t = some body := by
      rw [afterImport?, Text.after?_eq_some_iff.2 ht]
      exact afterBlanks?_eq_some hne hgap hbody
    rw [hafter]
    exact readPackage_eq_some_iff.2
      ⟨package, _, hgroups, hpackage, hrun, htail, afterSemicolon?_eq_some_iff.2 ⟨gap', rfl, hgap'⟩⟩

/-! ### One pass over the text -/

/-- The package of the declaration whose word `import` is at the front of the text. -/
def packageAt? (t : Text) : Option Text :=
  match Text.after? importWord t with
  | some _ => (readWildcard t).bind fun r => r.groups.head?
  | none => none

/-- The imports of packages from an offset on, each with the offset of its word `import`.
`blankSoFar` tells whether only blanks stand before the offset on its line. -/
def packageImportsFrom (offset : Nat) (blankSoFar : Bool) : Text → List (Nat × Text)
  | [] => []
  | c :: rest =>
    let here := if blankSoFar then packageAt? (c :: rest) else none
    (here.map (offset, ·)).toList ++ packageImportsFrom (offset + 1) (c = '\n' || (blankSoFar && isBlank c)) rest

/-- The imports of packages in a text, each with the offset of its word `import`. -/
def packageImports (t : Text) : List (Nat × Text) := packageImportsFrom 0 true t

theorem DeclaresPackage.head? {t package rest : Text} (h : DeclaresPackage t package rest) :
    t.head? = some (CodePoint.char 'i') := by
  obtain ⟨gap, body, gap', rfl, -⟩ := h
  rfl

theorem DeclaresPackage.dropWhile_isBlank {t package rest : Text} (h : DeclaresPackage t package rest) :
    t.dropWhile isBlank = t := by
  obtain ⟨gap, body, gap', rfl, -⟩ := h
  exact List.dropWhile_cons_of_neg (by decide)

theorem packageAt?_eq_some_iff {t package : Text} :
    packageAt? t = some package ↔ ∃ rest, DeclaresPackage t package rest := by
  constructor
  · intro h
    unfold packageAt? at h
    split at h
    · next tail htail =>
      obtain ⟨r, hr, hhead⟩ := Option.bind_eq_some_iff.1 h
      obtain ⟨q, hgroups, hdeclares⟩ := readWildcard_eq_some_iff.1 hr
      obtain rfl : q = package := by simpa [hgroups] using hhead
      obtain rfl := Text.after?_eq_some_iff.1 htail
      rw [show (importWord ++ tail).dropWhile isBlank = importWord ++ tail from
        List.dropWhile_cons_of_neg (by decide)] at hdeclares
      exact ⟨r.rest, hdeclares⟩
    · simp at h
  · rintro ⟨rest, h⟩
    have hread : readWildcard t = some ⟨[package], rest⟩ :=
      readWildcard_eq_some_iff.2 ⟨package, rfl, by rw [h.dropWhile_isBlank]; exact h⟩
    obtain ⟨gap, body, gap', ht, -⟩ := h
    simp only [packageAt?, Text.after?_eq_some_iff.2 ht, hread, Option.bind_some, List.head?_cons]

theorem packageAt?_eq_none_of_ne {c : CodePoint} (rest : Text) (h : c ≠ 'i') : packageAt? (c :: rest) = none := by
  cases hp : packageAt? (c :: rest) with
  | none => rfl
  | some q =>
    obtain ⟨_, hd⟩ := packageAt?_eq_some_iff.1 hp
    exact absurd (by simpa using hd.head?) h

theorem packageImportsFrom_cons_of_some {offset : Nat} {c : CodePoint} {rest package : Text}
    (h : packageAt? (c :: rest) = some package) : packageImportsFrom offset true (c :: rest) =
      (offset, package) :: packageImportsFrom (offset + 1) (c = '\n' || isBlank c) rest := by
  simp [packageImportsFrom, h]

theorem packageImportsFrom_cons_of_none (offset : Nat) {blankSoFar : Bool} {c : CodePoint} {rest : Text}
    (h : blankSoFar = true → packageAt? (c :: rest) = none) : packageImportsFrom offset blankSoFar (c :: rest) =
      packageImportsFrom (offset + 1) (c = '\n' || (blankSoFar && isBlank c)) rest := by
  cases blankSoFar with
  | false => simp [packageImportsFrom]
  | true => simp [packageImportsFrom, h rfl]

/-- Whether only blanks were met on the last line, starting with `blankSoFar`. -/
def blankAfter (blankSoFar : Bool) (t : Text) : Bool :=
  t.foldl (fun b (c : CodePoint) => c = '\n' || (b && isBlank c)) blankSoFar

theorem blankAfter_true_iff (t : Text) : blankAfter true t = true ↔ EndsInBlankLine t := by
  induction t using List.reverseRecOn with
  | nil => simp [blankAfter, EndsInBlankLine, Text.lastRun]
  | append_singleton t c ih =>
    have hstep : blankAfter true (t ++ [c]) = (c = '\n' || (blankAfter true t && isBlank c)) := by
      simp [blankAfter]
    rw [hstep, EndsInBlankLine, Text.lastRun_append_singleton]
    by_cases hc : c = '\n'
    · simp [hc]
    · simp only [hc, decide_false, Bool.false_or, Bool.and_eq_true, ih, ne_eq, not_false_eq_true, decide_true, if_true,
        List.mem_append, List.mem_singleton, EndsInBlankLine]
      constructor
      · rintro ⟨hline, hblank⟩ d (hd | rfl)
        · exact hline d hd
        · exact hblank
      · exact fun h => ⟨fun d hd => h d (Or.inl hd), h c (Or.inr rfl)⟩

/-- The pass lists what is declared behind each beginning of the text that ends in a blank line. -/
theorem mem_packageImportsFrom {offset p : Nat} {blankSoFar : Bool} {t q : Text} :
    (p, q) ∈ packageImportsFrom offset blankSoFar t ↔ ∃ before after, t = before ++ after ∧
      p = offset + before.length ∧ blankAfter blankSoFar before = true ∧ packageAt? after = some q := by
  induction t generalizing offset blankSoFar with
  | nil =>
    constructor
    · intro h
      simp [packageImportsFrom] at h
    · rintro ⟨before, after, ht, -, -, hq⟩
      obtain ⟨-, rfl⟩ := List.append_eq_nil_iff.1 ht.symm
      simp [packageAt?, Text.after?, importWord] at hq
  | cons c t ih =>
    rw [packageImportsFrom, List.mem_append, ih]
    constructor
    · rintro (h | ⟨before, after, rfl, rfl, hblank, hq⟩)
      · cases blankSoFar with
        | false => simp at h
        | true =>
          simp only [if_true, Option.mem_toList, Option.map_eq_some_iff, Prod.mk.injEq] at h
          obtain ⟨q', hq', rfl, rfl⟩ := h
          exact ⟨[], c :: t, rfl, rfl, rfl, hq'⟩
      · exact ⟨c :: before, after, rfl, by simp; omega, hblank, hq⟩
    · rintro ⟨before, after, ht, rfl, hblank, hq⟩
      cases before with
      | nil =>
        obtain rfl : c :: t = after := ht
        obtain rfl : blankSoFar = true := hblank
        exact Or.inl (by simp [hq])
      | cons d before =>
        obtain ⟨rfl, rfl⟩ := List.cons.inj ht
        exact Or.inr ⟨before, after, rfl, by simp; omega, hblank, hq⟩

/-- The pass lists exactly the imports of packages. -/
theorem mem_packageImports {t q : Text} {p : Nat} : (p, q) ∈ packageImports t ↔ ImportsPackageAt t p q := by
  rw [packageImports, mem_packageImportsFrom]
  constructor
  · rintro ⟨before, after, rfl, rfl, hblank, hq⟩
    rw [Nat.zero_add, ImportsPackageAt, List.take_left, List.drop_left]
    exact ⟨(blankAfter_true_iff before).1 hblank, packageAt?_eq_some_iff.1 hq⟩
  · rintro ⟨hblank, hrest⟩
    have hp : p < t.length := by
      by_contra hle
      obtain ⟨rest, hd⟩ := hrest
      have := hd.head?
      rw [List.drop_eq_nil_of_le (Nat.le_of_not_lt hle)] at this
      simp at this
    refine ⟨t.take p, t.drop p, (List.take_append_drop p t).symm, ?_, (blankAfter_true_iff _).2 hblank,
      packageAt?_eq_some_iff.2 hrest⟩
    rw [List.length_take]
    omega

theorem le_of_mem_packageImportsFrom {offset : Nat} {blankSoFar : Bool} {t : Text} {i : Nat × Text}
    (h : i ∈ packageImportsFrom offset blankSoFar t) : offset ≤ i.1 := by
  obtain ⟨p, q⟩ := i
  obtain ⟨before, -, -, rfl, -⟩ := mem_packageImportsFrom.1 h
  exact Nat.le_add_right _ _

/-- The pass goes from the front to the back. -/
theorem pairwise_packageImportsFrom (offset : Nat) (blankSoFar : Bool) (t : Text) :
    (packageImportsFrom offset blankSoFar t).Pairwise (·.1 < ·.1) := by
  induction t generalizing offset blankSoFar with
  | nil => exact List.Pairwise.nil
  | cons c t ih =>
    rw [packageImportsFrom]
    refine List.pairwise_append.2 ⟨?_, ih _ _, ?_⟩
    · cases (if blankSoFar then packageAt? (c :: t) else none) <;> simp
    · intro i hi j hj
      have hj' := le_of_mem_packageImportsFrom hj
      simp only [Option.mem_toList, Option.map_eq_some_iff] at hi
      obtain ⟨q, -, rfl⟩ := hi
      exact hj'

/-! ### What a declaration covers -/

theorem packageImportsFrom_solid {offset : Nat} {w : Text} (rest : Text) (hw : ∀ c ∈ w, isBlank c = false) :
    packageImportsFrom offset false (w ++ rest) = packageImportsFrom (offset + w.length) false rest := by
  induction w generalizing offset with
  | nil => rfl
  | cons c w ih =>
    have hc := hw c List.mem_cons_self
    rw [List.cons_append, packageImportsFrom_cons_of_none _ (by simp), Bool.false_and, Bool.or_false,
      decide_eq_false (ne_newline_of_not_isBlank hc), ih fun d hd => hw d (List.mem_cons_of_mem _ hd),
      List.length_cons, Nat.add_assoc, Nat.add_comm 1]

theorem ne_of_isBlank {c d : CodePoint} (hc : isBlank c = true) (hd : isBlank d = false) : c ≠ d := by
  rintro rfl
  rw [hc] at hd
  exact absurd hd (by simp)

theorem packageImportsFrom_blanks (offset : Nat) {w : Text} (rest : Text) (hw : ∀ c ∈ w, isBlank c = true)
    (blankSoFar : Bool) : ∃ b, (blankSoFar = true → b = true) ∧
      packageImportsFrom offset blankSoFar (w ++ rest) = packageImportsFrom (offset + w.length) b rest := by
  induction w generalizing offset blankSoFar with
  | nil => exact ⟨blankSoFar, id, rfl⟩
  | cons c w ih =>
    have hc := hw c List.mem_cons_self
    have hstep := packageImportsFrom_cons_of_none offset fun _ : blankSoFar = true =>
      packageAt?_eq_none_of_ne (w ++ rest) (ne_of_isBlank hc (by decide : isBlank 'i' = false))
    obtain ⟨b, hb, h⟩ := ih (offset + 1) (fun d hd => hw d (List.mem_cons_of_mem _ hd))
      (c = '\n' || (blankSoFar && isBlank c))
    refine ⟨b, fun ht => hb (by simp [ht, hc]), ?_⟩
    rw [List.cons_append, hstep, h, List.length_cons, Nat.add_assoc, Nat.add_comm 1]

theorem packageImportsFrom_one {offset : Nat} {blankSoFar : Bool} {c : CodePoint} {rest : Text}
    (hc : isBlank c = false) (h : packageAt? (c :: rest) = none) :
    packageImportsFrom offset blankSoFar (c :: rest) = packageImportsFrom (offset + 1) false rest := by
  rw [packageImportsFrom_cons_of_none _ fun _ => h, hc, Bool.and_false, Bool.or_false,
    decide_eq_false (ne_newline_of_not_isBlank hc)]

/-- No declaration begins where the name of a package begins: the run of dotted characters would be
the word `import`, but it ends in a dot. -/
theorem packageAt?_eq_none_of_run {body package : Text}
    (hrun : body.takeWhile isDottedChar = package ++ [CodePoint.char '.']) : packageAt? body = none := by
  cases hp : packageAt? body with
  | none => rfl
  | some q =>
    obtain ⟨rest, gap, body', gap', rfl, hne, hgap, -⟩ := packageAt?_eq_some_iff.1 hp
    have hword : (importWord ++ (gap ++ body')).takeWhile isDottedChar = importWord := by
      refine Text.takeWhile_append_of_stop (by decide) fun c hc => not_isDottedChar_of_isBlank (hgap c ?_)
      obtain ⟨d, gap, rfl⟩ := List.exists_cons_of_ne_nil hne
      obtain rfl : d = c := by simpa using hc
      exact List.mem_cons_self
    have hlast := congrArg List.getLast? (hword.symm.trans hrun)
    rw [List.getLast?_concat] at hlast
    exact absurd hlast (by decide)

/-- A pass that meets a declaration lists it and goes on behind it: a declaration covers no other. -/
theorem DeclaresPackage.packageImportsFrom {t package rest : Text} (h : DeclaresPackage t package rest)
    (offset : Nat) : packageImportsFrom offset true t =
      (offset, package) :: packageImportsFrom (offset + (t.length - rest.length)) false rest := by
  have hhere : packageAt? t = some package := packageAt?_eq_some_iff.2 ⟨rest, h⟩
  obtain ⟨gap, body, gap', rfl, hne, hgap, hrun, hpackage, htail, hgap'⟩ := h
  have hfirst := packageAt?_eq_none_of_run hrun
  have hdotted : ∀ c ∈ package ++ [CodePoint.char '.'], isBlank c = false := by
    intro c hc
    rw [← hrun] at hc
    exact not_isBlank_of_isDottedChar (List.mem_takeWhile_imp hc)
  obtain ⟨d, name, rfl⟩ := List.exists_cons_of_ne_nil hpackage
  have hbody : body = d :: ((name ++ [CodePoint.char '.', CodePoint.char '*']) ++
      (gap' ++ CodePoint.char ';' :: rest)) := by
    rw [← List.takeWhile_append_dropWhile (p := isDottedChar) (l := body), hrun, htail]
    simp
  -- The word `import`.
  rw [show importWord ++ (gap ++ body) = CodePoint.char 'i' :: (importWord.tail ++ (gap ++ body)) from rfl] at hhere ⊢
  rw [packageImportsFrom_cons_of_some hhere, show (decide (CodePoint.char 'i' = '\n') || isBlank 'i') = false by decide,
    packageImportsFrom_solid _ (by decide)]
  -- The blanks behind it, after which the line may be blank, and the first character of the name.
  obtain ⟨b, -, hb⟩ := packageImportsFrom_blanks (offset + 1 + importWord.tail.length) body hgap false
  rw [hbody] at hfirst
  rw [hb, hbody, packageImportsFrom_one (hdotted d List.mem_cons_self) hfirst]
  -- The rest of the name, the dot and the asterisk.
  rw [packageImportsFrom_solid]
  · -- The blanks before the semicolon, and the semicolon.
    obtain ⟨b', -, hb'⟩ := packageImportsFrom_blanks (offset + 1 + importWord.tail.length + gap.length + 1 +
      (name ++ [CodePoint.char '.', CodePoint.char '*']).length) (CodePoint.char ';' :: rest) hgap' false
    rw [hb', packageImportsFrom_one (by decide) (packageAt?_eq_none_of_ne rest (by decide))]
    congr 2
    simp
    omega
  · intro c hc
    rw [← List.singleton_append, ← List.append_assoc, List.mem_append, List.mem_singleton] at hc
    rcases hc with hc | rfl
    · exact hdotted c (List.mem_cons_of_mem _ hc)
    · decide

end SourceJump.Java
