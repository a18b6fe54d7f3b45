/-
The areas of a focus or metering string, `parseCameraAreaString` and
`validateCameraAreas`.

* `AreasWritten` — how a list of areas is written: each as five integers in
  parentheses, separated by commas;
* `area_validation_sound_iff` — an accepted and approved string is a list of areas
  with the corners and weights that are allowed exactly if it is `WellSpelled`: the
  parser passes over text behind the fifth number and between areas, takes a
  missing number for 0, and the widths wrap around.
-/
import HdxCommon.ParamStrings

namespace ParamStrings

/-! ### Integers -/

def digitsVal (ds : List UInt8) : ℤ := ds.foldl (fun n d => 10 * n + ((d.toNat : ℤ) - 0x30)) 0

/-- The number as a `long`. -/
def clampLong (n : ℤ) : ℤ := max (-2 ^ 31) (min (2 ^ 31 - 1) n)

/-- `Numeral t v`: the text `t` is an integer, perhaps with spaces before it, and
`v` its value as a `long`. -/
def Numeral (t : List UInt8) (v : ℤ) : Prop :=
  ∃ ws sg ds, t = ws ++ (sg ++ ds) ∧ (∀ c ∈ ws, isSpace c = true) ∧
    (sg = [] ∨ sg = [0x2B] ∨ sg = [0x2D]) ∧ ds ≠ [] ∧ (∀ c ∈ ds, isDigit c = true) ∧
    v = clampLong (if sg = [0x2D] then -digitsVal ds else digitsVal ds)

variable {s t rest fin : List UInt8} {v : ℤ} {n : ℕ}

theorem not_isSpace_of_isDigit {c : UInt8} (h : isDigit c = true) : isSpace c = false := by
  have hall : ∀ i : Fin 256, isDigit (UInt8.ofNat i.val) = true →
      isSpace (UInt8.ofNat i.val) = false := by decide +kernel
  have hc := hall ⟨c.toNat, c.toNat_lt⟩
  rw [UInt8.ofNat_toNat] at hc
  exact hc h

theorem sign_append {sg ds : List UInt8} (hsg : sg = [] ∨ sg = [0x2B] ∨ sg = [0x2D])
    (hds : ∀ c ∈ ds.head?, isDigit c = true) (hne : ds ≠ []) :
    sign (sg ++ ds) = (decide (sg = [0x2D]), ds) := by
  obtain ⟨d, ds, rfl⟩ := List.exists_cons_of_ne_nil hne
  have hd := hds d rfl
  rcases hsg with rfl | rfl | rfl
  · have hminus : d ≠ 0x2D := by
      rintro rfl
      exact absurd hd (by decide)
    have hplus : d ≠ 0x2B := by
      rintro rfl
      exact absurd hd (by decide)
    simp only [List.nil_append, sign]
    split
    · rename_i heq
      exact absurd (List.cons.inj heq).1 hminus
    · rename_i heq
      exact absurd (List.cons.inj heq).1 hplus
    · rfl
  all_goals rfl

/-- `strtol` reads a numeral to its end. -/
theorem strtol_of_numeral (h : Numeral t v) (hrest : ∀ c ∈ rest.head?, isDigit c = false) :
    strtol (t ++ rest) = (v, rest) := by
  obtain ⟨ws, sg, ds, rfl, hws, hsg, hne, hds, rfl⟩ := h
  have hhead : ∀ c ∈ (ds ++ rest).head?, isDigit c = true := by
    obtain ⟨d, ds, rfl⟩ := List.exists_cons_of_ne_nil hne
    intro c hc
    cases hc
    exact hds _ List.mem_cons_self
  have hskip : (ws ++ (sg ++ ds) ++ rest).dropWhile isSpace = sg ++ (ds ++ rest) := by
    rw [List.append_assoc, List.append_assoc, List.dropWhile_append_of_pos hws]
    rcases hsg with rfl | rfl | rfl
    · obtain ⟨d, ds, rfl⟩ := List.exists_cons_of_ne_nil hne
      exact List.dropWhile_cons_of_neg
        (by rw [not_isSpace_of_isDigit (hds d List.mem_cons_self)]; decide)
    all_goals rfl
  have htake : (ds ++ rest).takeWhile isDigit = ds := by
    rw [List.takeWhile_append_of_pos hds]
    cases rest with
    | nil => simp
    | cons c rest => rw [List.takeWhile_cons_of_neg (by simp [hrest c rfl]), List.append_nil]
  have hdrop : (ds ++ rest).dropWhile isDigit = rest := by
    rw [List.dropWhile_append_of_pos hds]
    cases rest with
    | nil => rfl
    | cons c rest => exact List.dropWhile_cons_of_neg (by simp [hrest c rfl])
  have hne' : ds ++ rest ≠ [] := List.append_ne_nil_of_left_ne_nil hne rest
  simp only [strtol, hskip, sign_append hsg hhead hne', htake, if_neg hne, hdrop]
  by_cases hneg : sg = [0x2D]
  all_goals simp [hneg, clampLong, digitsVal]

theorem sign_spec (l : List UInt8) : ∃ sg, l = sg ++ (sign l).2 ∧
    (sg = [] ∨ sg = [0x2B] ∨ sg = [0x2D]) ∧ (sign l).1 = decide (sg = [0x2D]) := by
  unfold sign
  split
  · exact ⟨[0x2D], rfl, by simp, rfl⟩
  · exact ⟨[0x2B], rfl, by simp, rfl⟩
  · exact ⟨[], rfl, by simp, rfl⟩

/-- Where `strtol` moves on, it has read a numeral. -/
theorem numeral_of_strtol (hmoved : (strtol s).2 ≠ s) :
    ∃ t, s = t ++ (strtol s).2 ∧ Numeral t (strtol s).1 := by
  obtain ⟨sg, hsplit, hsg, hneg⟩ := sign_spec (s.dropWhile isSpace)
  generalize hd : (sign (s.dropWhile isSpace)).2 = d at hsplit
  have hdigits : d.takeWhile isDigit ≠ [] := by
    intro hnil
    refine hmoved ?_
    simp [strtol, hd, hnil]
  have hval : strtol s = (clampLong (if sg = [0x2D] then -digitsVal (d.takeWhile isDigit)
      else digitsVal (d.takeWhile isDigit)), d.dropWhile isDigit) := by
    simp only [strtol, hd, hneg, if_neg hdigits, decide_eq_true_eq]
    rfl
  rw [hval]
  refine ⟨s.takeWhile isSpace ++ (sg ++ d.takeWhile isDigit), ?_, s.takeWhile isSpace, sg,
    d.takeWhile isDigit, rfl, ?_, hsg, hdigits, ?_, rfl⟩
  · calc s = s.takeWhile isSpace ++ (sg ++ d) := by rw [← hsplit, List.takeWhile_append_dropWhile]
      _ = _ := by
        rw [List.append_assoc, List.append_assoc, List.takeWhile_append_dropWhile]
  all_goals
    intro c hc
    exact List.mem_takeWhile_imp hc

/-! ### How areas are written -/

structure Written where
  left : ℤ
  top : ℤ
  right : ℤ
  bottom : ℤ
  weight : ℤ
  deriving DecidableEq

namespace Written

def values (a : Written) : List ℤ := [a.left, a.top, a.right, a.bottom, a.weight]

theorem values_inj {a b : Written} (h : a.values = b.values) : a = b := by
  cases a
  cases b
  simpa [values] using h

/-- The area as it is to be stored. -/
def area (a : Written) : Area := ⟨a.left, a.top, a.right - a.left, a.bottom - a.top, a.weight⟩

/-- The area that the parser stores. -/
def stored (a : Written) : Area :=
  ⟨a.left, a.top, subInt a.right a.left, subInt a.bottom a.top, a.weight⟩

structure InRange (a : Written) : Prop where
  left : -1000 ≤ a.left
  width : a.left < a.right
  right : a.right ≤ 1000
  top : -1000 ≤ a.top
  height : a.top < a.bottom
  bottom : a.bottom ≤ 1000
  weight : 1 ≤ a.weight ∧ a.weight ≤ 1000

def Fits (a : Written) : Prop :=
  -2 ^ 31 ≤ a.right - a.left ∧ a.right - a.left < 2 ^ 31 ∧
    -2 ^ 31 ≤ a.bottom - a.top ∧ a.bottom - a.top < 2 ^ 31

instance (a : Written) : Decidable a.Fits := inferInstanceAs (Decidable (_ ∧ _ ∧ _ ∧ _))

end Written

/-- `Fields vs s`: the text `s` is the numbers `vs`, separated by commas, and a
closing parenthesis. -/
inductive Fields : List ℤ → List UInt8 → Prop
  | last {t : List UInt8} {v : ℤ} (hnum : Numeral t v) : Fields [v] (t ++ [rparen])
  | more {t s : List UInt8} {v : ℤ} {vs : List ℤ} (hnum : Numeral t v) (hrest : Fields vs s) :
      Fields (v :: vs) (t ++ comma :: s)

/-- `AreasWritten as s`: the text `s` is the areas `as`, each written as five
integers in parentheses, separated by commas. -/
inductive AreasWritten : List Written → List UInt8 → Prop
  | last {a : Written} {body : List UInt8} (harea : Fields a.values body) :
      AreasWritten [a] (lparen :: body)
  | more {a : Written} {as : List Written} {body s : List UInt8} (harea : Fields a.values body)
      (hrest : AreasWritten as s) : AreasWritten (a :: as) (lparen :: body ++ comma :: s)

/-- What an approved string is to be: a list of areas that are inside the frame, or
the area of five zeros alone. -/
def SoundAreas (s : List UInt8) (areas : List Area) : Prop :=
  ∃ as, AreasWritten as s ∧ areas = as.map Written.area ∧
    ((∀ a ∈ as, a.InRange) ∨ as = [⟨0, 0, 0, 0, 0⟩])

/-! ### What the parser reads -/

/-- The numbers that `parseNDimVector` reads. -/
def dims : ℕ → List UInt8 → List ℤ
  | 0, _ => []
  | n + 1, s => (strtol s).1 :: dims n (strtol s).2.tail

/-- Every number has a digit, and the last one ends at the parenthesis. -/
def Spelled : ℕ → List UInt8 → Prop
  | 0, _ => True
  | n + 1, s => (strtol s).2 ≠ s ∧
    if n = 0 then (strtol s).2 = [rparen] else Spelled n (strtol s).2.tail

theorem not_isDigit_comma : isDigit comma = false := by decide

theorem not_isDigit_rparen : isDigit rparen = false := by decide

theorem numeral_ne_nil (h : Numeral t v) : t ≠ [] := by
  obtain ⟨ws, sg, ds, rfl, -, -, hne, -⟩ := h
  simp [hne]

theorem Fields.read {vs : List ℤ} (h : Fields vs s) :
    dims vs.length s = vs ∧ dimsRc vs.length s = noError ∧ Spelled vs.length s := by
  induction h with
  | @last t v hnum =>
    have hread : strtol (t ++ [rparen]) = (v, [rparen]) :=
      strtol_of_numeral hnum (by simp [not_isDigit_rparen])
    have hmoved : [rparen] ≠ t ++ [rparen] := by
      simpa using numeral_ne_nil hnum
    simp [dims, dimsRc, Spelled, hread, hmoved]
  | @more t s v vs hnum hrest ih =>
    have hread : strtol (t ++ comma :: s) = (v, comma :: s) :=
      strtol_of_numeral hnum (by simp [not_isDigit_comma])
    have hmoved : comma :: s ≠ t ++ comma :: s := by
      simpa using numeral_ne_nil hnum
    have hlen : vs.length ≠ 0 := by
      cases hrest <;> simp
    simp [dims, dimsRc, Spelled, hread, hmoved, ih, hlen]

theorem fields_of_spelled (hrc : dimsRc (n + 1) s = noError) (h : Spelled (n + 1) s) :
    Fields (dims (n + 1) s) s := by
  induction n generalizing s with
  | zero =>
    obtain ⟨hmoved, hend⟩ := h
    obtain ⟨t, hsplit, hnum⟩ := numeral_of_strtol hmoved
    rw [if_pos rfl] at hend
    have hlast := Fields.last hnum
    rw [← hend, ← hsplit] at hlast
    exact hlast
  | succ n ih =>
    obtain ⟨hmoved, hrest⟩ := h
    obtain ⟨t, hsplit, hnum⟩ := numeral_of_strtol hmoved
    rw [if_neg (Nat.succ_ne_zero n)] at hrest
    rw [dimsRc] at hrc
    split at hrc
    · exact absurd hrc (by decide)
    rename_i hstop
    have hcomma : (strtol s).2 = comma :: (strtol s).2.tail := by
      have hhead : (strtol s).2.head? = some comma := by
        by_contra hne
        exact hstop ⟨hne, Nat.succ_ne_zero n⟩
      exact (List.cons_head?_tail hhead).symm
    have hmore := Fields.more hnum (ih hrc hrest)
    rw [← hcomma, ← hsplit] at hmore
    exact hmore

theorem Fields.split {vs : List ℤ} (h : Fields vs s) : ∃ b, s = b ++ [rparen] ∧ rparen ∉ b := by
  have hnumeral : ∀ {t : List UInt8} {v : ℤ}, Numeral t v → rparen ∉ t := by
    rintro t v ⟨ws, sg, ds, rfl, hws, hsg, -, hds, -⟩ hmem
    rcases List.mem_append.mp hmem with hmem | hmem
    · exact absurd (hws _ hmem) (by decide)
    rcases List.mem_append.mp hmem with hmem | hmem
    · rcases hsg with rfl | rfl | rfl <;> exact absurd hmem (by decide)
    · exact absurd (hds _ hmem) (by decide)
  induction h with
  | @last t v hnum => exact ⟨t, rfl, hnumeral hnum⟩
  | @more t s v vs hnum hrest ih =>
    obtain ⟨b, rfl, hb⟩ := ih
    refine ⟨t ++ comma :: b, by simp, ?_⟩
    intro hmem
    rcases List.mem_append.mp hmem with hmem | hmem
    · exact hnumeral hnum hmem
    · rcases List.mem_cons.mp hmem with heq | hmem
      · exact absurd heq (by decide)
      · exact hb hmem

theorem areaText_append {b : List UInt8} (hb : rparen ∉ b) :
    areaText (lparen :: (b ++ rparen :: rest)) =
      some (lparen :: (b ++ [rparen]), rparen :: rest) := by
  have hfind : strchr (lparen :: (b ++ rparen :: rest)) rparen = some (rparen :: rest) := by
    have hskip : (lparen :: (b ++ rparen :: rest)).dropWhile (· ≠ rparen) = rparen :: rest := by
      rw [List.dropWhile_cons_of_pos (by decide), List.dropWhile_append_of_pos]
      · exact List.dropWhile_cons_of_neg (by simp)
      · intro c hc
        simpa using fun heq : c = rparen => hb (heq ▸ hc)
    rw [strchr, if_pos (by simp), hskip]
  simp only [areaText, hfind, List.head?_cons, ne_eq, not_true_eq_false, if_false, Option.map_some]
  have hlen : (lparen :: (b ++ rparen :: rest)).length - (rparen :: rest).length + 1 =
      (lparen :: (b ++ [rparen])).length := by
    simp only [List.length_cons, List.length_append, List.length_nil]
    omega
  rw [hlen]
  have hsplit : lparen :: (b ++ rparen :: rest) = (lparen :: (b ++ [rparen])) ++ rest := by simp
  rw [hsplit, List.take_left']
  rfl

theorem areaText_split {start text : List UInt8} (h : areaText start = some (text, fin)) :
    ∃ b rest, text = lparen :: (b ++ [rparen]) ∧ fin = rparen :: rest ∧ start = text ++ rest := by
  obtain ⟨hfin, -, -⟩ := areaText_spec h
  have hhead := head_of_strchr hfin
  obtain ⟨rest, rfl⟩ : ∃ rest, fin = rparen :: rest := ⟨fin.tail, (List.cons_head?_tail hhead).symm⟩
  rw [areaText] at h
  split_ifs at h with hopen
  rw [hfin] at h
  obtain ⟨htext, -⟩ := Prod.mk.inj (Option.some.inj h)
  rw [strchr] at hfin
  split_ifs at hfin with hmem
  have hsplit : start.takeWhile (· ≠ rparen) ++ rparen :: rest = start := by
    rw [← Option.some.inj hfin, List.takeWhile_append_dropWhile]
  cases hbefore : start.takeWhile (· ≠ rparen) with
  | nil =>
    rw [hbefore, List.nil_append] at hsplit
    rw [← hsplit] at hopen
    exact absurd (Option.some.inj (not_not.mp hopen)) (by decide)
  | cons c b =>
    rw [hbefore] at hsplit
    have hc : c = lparen := by
      rw [← hsplit] at hopen
      exact Option.some.inj (not_not.mp hopen)
    subst hc
    -- the text is everything up to and with the parenthesis
    have hcons : start = (lparen :: (b ++ [rparen])) ++ rest := by rw [← hsplit]; simp
    have hlen : start.length - (rparen :: rest).length + 1 =
        (lparen :: (b ++ [rparen])).length := by
      simp only [hcons, List.length_cons, List.length_append, List.length_nil]
      omega
    rw [hlen, hcons, List.take_left' rfl] at htext
    exact ⟨b, rest, htext.symm, rfl, htext ▸ hcons⟩

/-- `Scanned start as`: from `start` on the parser reads areas with the numbers of
`as`, and it looks for each after the end of the one before it. -/
inductive Scanned : List UInt8 → List Written → Prop
  | last {start text fin : List UInt8} {a : Written} (htext : areaText start = some (text, fin))
      (hrc : areaRc text = noError) (hvalues : dims 5 text.tail = a.values)
      (hnext : strchr fin lparen = none) : Scanned start [a]
  | more {start text fin next : List UInt8} {a : Written} {as : List Written}
      (htext : areaText start = some (text, fin)) (hrc : areaRc text = noError)
      (hvalues : dims 5 text.tail = a.values) (hnext : strchr fin lparen = some next)
      (hrest : Scanned next as) : Scanned start (a :: as)

/-- `WellSpelled start`: from `start` on, each area has five numbers that end at
its parenthesis, with a width and a height that fit an int, and there is one comma
between two areas and nothing behind the last. -/
inductive WellSpelled : List UInt8 → Prop
  | last {start text : List UInt8} {a : Written} (htext : areaText start = some (text, [rparen]))
      (hspelled : Spelled 5 text.tail) (hvalues : dims 5 text.tail = a.values) (hfits : a.Fits) :
      WellSpelled start
  | more {start text next : List UInt8} {a : Written}
      (htext : areaText start = some (text, rparen :: comma :: next))
      (hspelled : Spelled 5 text.tail) (hvalues : dims 5 text.tail = a.values) (hfits : a.Fits)
      (hrest : WellSpelled next) : WellSpelled start

theorem AreasWritten.wellSpelled {as : List Written} (h : AreasWritten as s)
    (hfits : ∀ a ∈ as, a.Fits) : WellSpelled s := by
  induction h with
  | @last a body harea =>
    obtain ⟨hvalues, -, hspelled⟩ := harea.read
    obtain ⟨b, rfl, hb⟩ := harea.split
    exact .last (areaText_append hb) hspelled hvalues (hfits a List.mem_cons_self)
  | @more a as body s harea hrest ih =>
    obtain ⟨hvalues, -, hspelled⟩ := harea.read
    obtain ⟨b, rfl, hb⟩ := harea.split
    have htext : areaText (lparen :: (b ++ [rparen]) ++ comma :: s) =
        some (lparen :: (b ++ [rparen]), rparen :: comma :: s) := by
      rw [← areaText_append hb]
      simp
    exact .more htext hspelled hvalues (hfits a List.mem_cons_self)
      (ih fun a ha => hfits a (List.mem_cons_of_mem _ ha))

/-- The numbers of an area that is accepted and spelled are written between its
parentheses. -/
theorem fields_of_areaText {start text : List UInt8} {a : Written}
    (htext : areaText start = some (text, rparen :: rest)) (hrc : areaRc text = noError)
    (hspelled : Spelled 5 text.tail) (hvalues : dims 5 text.tail = a.values) :
    ∃ body, start = lparen :: body ++ rest ∧ Fields a.values body := by
  obtain ⟨b, rest', rfl, hfin, rfl⟩ := areaText_split htext
  obtain rfl := (List.cons.inj hfin).2
  refine ⟨b ++ [rparen], rfl, ?_⟩
  rw [areaRc] at hrc
  split_ifs at hrc
  · exact absurd hrc (by decide)
  · rw [← hvalues]
    exact fields_of_spelled hrc hspelled

theorem WellSpelled.head {start : List UInt8} (h : WellSpelled start) :
    start.head? = some lparen := by
  have hopen : ∀ {start text fin : List UInt8}, areaText start = some (text, fin) →
      start.head? = some lparen := by
    intro start text fin htext
    obtain ⟨b, rest, rfl, -, rfl⟩ := areaText_split htext
    rfl
  cases h with
  | last htext | more htext => exact hopen htext

theorem strchr_comma {next : List UInt8} (h : next.head? = some lparen) :
    strchr (rparen :: comma :: next) lparen = some next := by
  obtain ⟨c, next, rfl⟩ := List.exists_cons_of_ne_nil
    (show next ≠ [] by rintro rfl; exact absurd h (by simp))
  obtain rfl : c = lparen := Option.some.inj h
  rw [strchr, if_pos (by simp), List.dropWhile_cons_of_pos (by decide),
    List.dropWhile_cons_of_pos (by decide), List.dropWhile_cons_of_neg (by simp)]

theorem WellSpelled.written {start : List UInt8} (h : WellSpelled start) {as : List Written}
    (hscan : Scanned start as) : AreasWritten as start ∧ ∀ a ∈ as, a.Fits := by
  induction h generalizing as with
  | @last start text a htext hspelled hvalues hfits =>
    cases hscan with
    | @last _ _ _ a' htext' hrc hvalues' hnext =>
      obtain ⟨rfl, rfl⟩ := Prod.mk.inj (Option.some.inj (htext'.symm.trans htext))
      obtain rfl := Written.values_inj (hvalues'.symm.trans hvalues)
      obtain ⟨body, rfl, hfields⟩ := fields_of_areaText htext hrc hspelled hvalues
      rw [List.append_nil]
      exact ⟨.last hfields, by simpa using hfits⟩
    | more htext' hrc hvalues' hnext hrest =>
      obtain ⟨rfl, rfl⟩ := Prod.mk.inj (Option.some.inj (htext'.symm.trans htext))
      exact absurd hnext (by simp [strchr, lparen, rparen])
  | @more start text next a htext hspelled hvalues hfits hrest ih =>
    -- the next area is the one after the comma
    have hfound := strchr_comma hrest.head
    cases hscan with
    | last htext' hrc hvalues' hnext =>
      obtain ⟨rfl, rfl⟩ := Prod.mk.inj (Option.some.inj (htext'.symm.trans htext))
      exact absurd (hfound.symm.trans hnext) (by simp)
    | @more _ _ _ next' a' as htext' hrc hvalues' hnext hrest' =>
      obtain ⟨rfl, rfl⟩ := Prod.mk.inj (Option.some.inj (htext'.symm.trans htext))
      obtain rfl := Option.some.inj (hfound.symm.trans hnext)
      obtain rfl := Written.values_inj (hvalues'.symm.trans hvalues)
      obtain ⟨body, rfl, hfields⟩ := fields_of_areaText htext hrc hspelled hvalues
      obtain ⟨hwritten, hall⟩ := ih hrest'
      exact ⟨.more hfields hwritten, List.forall_mem_cons.mpr ⟨hfits, hall⟩⟩

/-! ### The parser -/

theorem parseDims_values (left : ℕ) (start : List UInt8) {num num' : List ℤ} {i : ℕ}
    (hroom : i + left ≤ num.length)
    (h : parseDims left start num i = some (noError, num')) :
    num' = num.take i ++ dims left start ++ num.drop (i + left) := by
  induction left generalizing start num i with
  | zero =>
    cases h
    simp [dims]
  | succ left ih =>
    have hi : i < num.length := by omega
    simp only [parseDims, store, if_pos hi, Option.bind_eq_bind, Option.bind_some] at h
    split_ifs at h with hstop
    · exact absurd (Prod.mk.inj (Option.some.inj h)).1 (by decide)
    · have hrest := ih (strtol start).2.tail (by rw [List.length_set]; omega) h
      have hdrop : (num.set i (strtol start).1).drop (i + 1 + left) =
          num.drop (i + (left + 1)) := by
        rw [List.drop_set_of_lt (by omega)]
        congr 1
        omega
      rw [hrest, take_set_succ hi, hdrop, dims]
      simp

theorem dimsRc_nonneg (n : ℕ) (s : List UInt8) (h : 0 ≤ dimsRc n s) : dimsRc n s = noError := by
  induction n generalizing s with
  | zero => rfl
  | succ n ih =>
    rw [dimsRc] at h ⊢
    split_ifs at h ⊢ with hstop
    · omega
    · exact ih _ h

/-- What `parseNDimVector` reads from an area that it accepts. -/
theorem parseNDimVector_values {text : List UInt8} {num num' : List ℤ} {rc : ℤ}
    (hnum : num.length = 5)
    (h : parseNDimVector text num 5 = some (rc, num')) (hrc : ¬ rc < 0) :
    areaRc text = noError ∧ num' = dims 5 text.tail := by
  obtain ⟨num₁, hspec, -⟩ := parseNDimVector_spec text hnum
  obtain ⟨rfl, rfl⟩ := Prod.mk.inj (Option.some.inj (hspec.symm.trans h))
  rw [parseNDimVector, areaRc] at h
  rw [areaRc] at hrc ⊢
  split_ifs at h hrc ⊢ with hform
  · exact absurd (by decide) hrc
  · have hzero := dimsRc_nonneg 5 text.tail (not_lt.mp hrc)
    rw [hzero] at h
    have hvalues := parseDims_values 5 text.tail (by omega) h
    rw [List.drop_eq_nil_of_le (by omega)] at hvalues
    exact ⟨hzero, by simpa using hvalues⟩

theorem areaOf_dims {text : List UInt8} {area : Area} (h : areaOf (dims 5 text) = some area) :
    ∃ a : Written, dims 5 text = a.values ∧ area = a.stored := by
  cases h
  exact ⟨⟨_, _, _, _, _⟩, rfl, rfl⟩

theorem parseArea_next {maxNumAreas : ℕ} {scan scan' : Scan} {start text : List UInt8}
    (hs : Sized maxNumAreas scan) (hret : scan'.ret = none) (hnul : 0 ∉ start)
    (htext : areaText start = some (text, fin))
    (h : parseArea maxNumAreas scan start = some scan') :
    areaRc text = noError ∧ ∃ a : Written, dims 5 text.tail = a.values ∧
      scan.index < scan.pAreas.length ∧ scan'.pAreas = scan.pAreas.set scan.index a.stored ∧
      scan'.index = scan.index + 1 ∧ scan'.start = strchr fin lparen := by
  have hfits : text.length ≤ 31 := by
    obtain ⟨-, hnone⟩ | ⟨hfits, -⟩ := parseArea_spec hs hnul htext
    · exact absurd (hnone.symm.trans h) (by simp)
    · exact hfits
  simp only [parseArea, htext, Option.bind_eq_bind, Option.bind_eq_some_iff] at h
  obtain ⟨copied, hcopy, areaStr, hnull, str, hstr, ⟨rc, values⟩, hparse, h⟩ := h
  -- what is parsed is what has been copied
  obtain ⟨b', hb', -, hcstr⟩ := @cstr_copied text scan.areaStr
    (by rw [hs.areaStr_length]; omega) fun h0 => hnul ((areaText_spec htext).2.1 h0)
  rw [hcopy, Option.bind_some, hnull] at hb'
  cases hb'
  obtain rfl := Option.some.inj (hcstr.symm.trans hstr)
  split_ifs at h with hrc hroom
  · cases h
    exact absurd hret (by simp)
  · cases h
    exact absurd hret (by simp)
  · obtain ⟨hzero, rfl⟩ := parseNDimVector_values hs.values_length hparse hrc
    obtain ⟨area, harea, pAreas, hstore, h⟩ := by
      simpa only [Option.bind_eq_some_iff] using h
    obtain ⟨a, hvalues, rfl⟩ := areaOf_dims harea
    obtain ⟨hlt, rfl⟩ := store_eq_some.mp hstore
    cases h
    exact ⟨hzero, a, hvalues, hlt, rfl, rfl, rfl⟩

/-- **What the parser reads**: the areas that it has stored when it ends without an
error are those of the string, one after the other. -/
theorem loop_scanned {maxNumAreas : ℕ} {scan scan' : Scan} {start : List UInt8} {n : ℕ}
    (hs : Sized maxNumAreas scan) (hret : scan.ret = none) (hstart : scan.start = some start)
    (hnul : 0 ∉ start) (hdone : scan'.ret = none)
    (h : loop (areaRound maxNumAreas) n (some scan) = some (some scan')) :
    ∃ as, Scanned start as ∧ scan'.pAreas.take scan'.index =
      scan.pAreas.take scan.index ++ as.map Written.stored := by
  induction n generalizing scan start with
  | zero => exact absurd h (by simp [loop])
  | succ n ih =>
    have hround : areaRound maxNumAreas (some scan) =
        some (parseArea maxNumAreas scan start) := by
      simp only [areaRound, hret, hstart]
    rw [loop, hround] at h
    dsimp only at h
    -- a scan that has returned stays as it is
    have hreturned : ∀ {scan₁ : Scan} {rc : ℤ}, scan₁.ret = some rc →
        loop (areaRound maxNumAreas) n (some scan₁) ≠ some (some scan') := by
      intro scan₁ rc hrc hloop
      obtain rfl := Option.some.inj (loop_of_stop (areaRound_returned hrc) hloop)
      exact absurd (hdone.symm.trans hrc) (by simp)
    cases hparse : parseArea maxNumAreas scan start with
    | none =>
      rw [hparse] at h
      exact absurd (loop_of_stop rfl h) (by simp)
    | some scan₁ =>
      rw [hparse] at h
      cases hret₁ : scan₁.ret with
      | some rc => exact absurd h (hreturned hret₁)
      | none =>
        cases htext : areaText start with
        | none =>
          rw [parseArea, htext] at hparse
          cases hparse
          exact absurd hret₁ (by simp)
        | some pair =>
          obtain ⟨text, fin⟩ := pair
          obtain ⟨hrc, a, hvalues, hlt, hpAreas, hindex, hstart₁⟩ :=
            parseArea_next hs hret₁ hnul htext hparse
          have hstored : scan₁.pAreas.take scan₁.index =
              scan.pAreas.take scan.index ++ [a.stored] := by
            rw [hpAreas, hindex, take_set_succ hlt]
          cases hnext : strchr fin lparen with
          | none =>
            have hlast : areaRound maxNumAreas (some scan₁) = none := by
              simp only [areaRound, hret₁, hstart₁.trans hnext]
            obtain rfl := Option.some.inj (loop_of_stop hlast h)
            exact ⟨[a], .last htext hrc hvalues hnext, hstored⟩
          | some next =>
            have hs₁ : Sized maxNumAreas scan₁ := by
              obtain ⟨-, hnone⟩ | ⟨-, scan₂, hsome, hs₂, -⟩ := parseArea_spec hs hnul htext
              · exact absurd (hnone.symm.trans hparse) (by simp)
              · obtain rfl := Option.some.inj (hsome.symm.trans hparse)
                exact hs₂
            have hnul₁ : 0 ∉ next := fun h0 =>
              hnul (subset_of_strchr (areaText_spec htext).1 (subset_of_strchr hnext h0))
            obtain ⟨as, hscan, hpAreas'⟩ := ih hs₁ hret₁ (hstart₁.trans hnext) hnul₁ h
            refine ⟨a :: as, .more htext hrc hvalues hnext hscan, ?_⟩
            rw [hpAreas', hstored, List.map_cons, List.append_assoc, List.singleton_append]

theorem parseArea_ret {maxNumAreas : ℕ} {scan scan' : Scan} {start : List UInt8}
    (hret : scan.ret ≠ some noError) (h : parseArea maxNumAreas scan start = some scan') :
    scan'.ret ≠ some noError := by
  have hbad : some badValue ≠ some noError := by decide
  rw [parseArea] at h
  split at h
  · cases h
    exact hbad
  · simp only [Option.bind_eq_bind, Option.bind_eq_some_iff] at h
    obtain ⟨copied, -, areaStr, -, str, -, ⟨rc, values⟩, -, h⟩ := h
    split_ifs at h with hrc hroom
    · cases h
      exact hbad
    · cases h
      exact hbad
    · obtain ⟨area, -, pAreas, -, h⟩ := by
        simpa only [Option.bind_eq_some_iff] using h
      cases h
      exact hret

theorem areaRound_ret {maxNumAreas : ℕ} {r r' : Option Scan}
    (hret : ∀ scan ∈ r, scan.ret ≠ some noError) (h : areaRound maxNumAreas r = some r') :
    ∀ scan ∈ r', scan.ret ≠ some noError := by
  rintro scan' rfl
  unfold areaRound at h
  split at h
  · exact absurd h (by simp)
  · rename_i scan
    split at h
    · exact parseArea_ret (hret scan rfl) (Option.some.inj h)
    · exact absurd h (by simp)

/-- A string that the parser accepts, and the areas that it hands on. -/
theorem parse_scanned {str : CString} {maxNumAreas : ℕ} {pAreas : List Area} {p : Parsed}
    (hlen : pAreas.length = maxNumAreas)
    (h : parseCameraAreaString str maxNumAreas pAreas = some (some p)) (hrc : p.rc = noError) :
    ∃ as, Scanned str.bytes as ∧ p.pAreas.take p.numAreasFound = as.map Written.stored := by
  rw [parseCameraAreaString, Option.map_eq_some_iff] at h
  obtain ⟨r, hloop, hr⟩ := h
  obtain ⟨scan, rfl, hp⟩ := Option.map_eq_some_iff.mp hr
  have hsized : Sized maxNumAreas
      ⟨some str.bytes, .replicate 32 0, .replicate 5 0, pAreas, 0, none⟩ := ⟨rfl, rfl, hlen⟩
  cases hret : scan.ret with
  | some rc =>
    simp only [hret] at hp
    subst hp
    have hno := loop_inv (fun r : Option Scan => ∀ scan ∈ r, scan.ret ≠ some noError)
      (fun _ _ => areaRound_ret) hloop (by simp)
    exact absurd (hret.trans (congrArg some hrc)) (hno scan rfl)
  | none =>
    simp only [hret] at hp
    subst hp
    obtain ⟨as, hscan, hareas⟩ := loop_scanned hsized rfl rfl str.no_nul hret hloop
    exact ⟨as, hscan, by simpa using hareas⟩

/-! ### The validation -/

theorem clampLong_bounds (n : ℤ) : -2 ^ 31 ≤ clampLong n ∧ clampLong n < 2 ^ 31 := by
  rw [clampLong]
  omega

theorem numeral_bounds (h : Numeral t v) : -2 ^ 31 ≤ v ∧ v < 2 ^ 31 := by
  obtain ⟨-, -, -, -, -, -, -, -, rfl⟩ := h
  exact clampLong_bounds _

theorem Fields.bounds {vs : List ℤ} (h : Fields vs s) : ∀ v ∈ vs, -2 ^ 31 ≤ v ∧ v < 2 ^ 31 := by
  induction h with
  | last hnum => simpa using numeral_bounds hnum
  | more hnum hrest ih => exact List.forall_mem_cons.mpr ⟨numeral_bounds hnum, ih⟩

/-- The numbers of an area are ints. -/
def Written.Ints (a : Written) : Prop := ∀ v ∈ a.values, -2 ^ 31 ≤ v ∧ v < 2 ^ 31

theorem AreasWritten.ints {as : List Written} (h : AreasWritten as s) : ∀ a ∈ as, a.Ints := by
  induction h with
  | last harea => exact List.forall_mem_singleton.mpr harea.bounds
  | more harea hrest ih => exact List.forall_mem_cons.mpr ⟨harea.bounds, ih⟩

theorem subInt_of_fits {a b : ℤ} (hlo : -2 ^ 31 ≤ a - b) (hhi : a - b < 2 ^ 31) :
    subInt a b = a - b := Int.bmod_eq_of_le (by omega) (by omega)

theorem Written.stored_of_fits {a : Written} (h : a.Fits) : a.stored = a.area := by
  obtain ⟨hw, hw', hh, hh'⟩ := h
  rw [stored, area, subInt_of_fits hw hw', subInt_of_fits hh hh']

theorem Written.InRange.fits {a : Written} (h : a.InRange) : a.Fits := by
  obtain ⟨h₁, h₂, h₃, h₄, h₅, h₆, -⟩ := h
  refine ⟨?_, ?_, ?_, ?_⟩ <;> omega

theorem addInt_sub_cancel {a b : ℤ} (h : -2 ^ 31 ≤ b ∧ b < 2 ^ 31) : addInt a (b - a) = b := by
  rw [addInt, add_sub_cancel]
  exact Int.bmod_eq_of_le (by omega) (by omega)

theorem Written.inRange_of_checked {a : Written} (hints : a.Ints)
    (h : (-1000 ≤ a.area.left && -1000 ≤ a.area.top && 0 < a.area.width && 0 < a.area.height &&
      addInt a.area.left a.area.width ≤ 1000 && addInt a.area.top a.area.height ≤ 1000 &&
      1 ≤ a.area.weight && a.area.weight ≤ 1000) = true) : a.InRange := by
  have hright := addInt_sub_cancel (a := a.left) (hints a.right (by simp [values]))
  have hbottom := addInt_sub_cancel (a := a.top) (hints a.bottom (by simp [values]))
  simp only [Bool.and_eq_true, decide_eq_true_eq] at h
  obtain ⟨⟨⟨⟨⟨⟨⟨hl, ht⟩, hw⟩, hh⟩, hr⟩, hb⟩, hlo⟩, hhi⟩ := h
  exact ⟨hl, Int.sub_pos.mp hw, hright ▸ hr, ht, Int.sub_pos.mp hh, hbottom ▸ hb, hlo, hhi⟩

theorem approved {as : List Written} (hints : ∀ a ∈ as, a.Ints) {areas : List Area} {num : ℕ}
    (hareas : areas.take num = as.map Written.area)
    (h : validateCameraAreas areas num = true) :
    (∀ a ∈ as, a.InRange) ∨ as = [⟨0, 0, 0, 0, 0⟩] := by
  rw [validateCameraAreas, Bool.or_eq_true] at h
  obtain hdefault | hall := h
  · right
    simp only [isDefaultArea, Bool.and_eq_true, decide_eq_true_eq] at hdefault
    obtain ⟨rfl, hzero⟩ := hdefault
    obtain ⟨area, rest, rfl⟩ := List.exists_cons_of_ne_nil
      (show areas ≠ [] by rintro rfl; exact absurd hzero (by simp))
    obtain rfl : area = _ := Option.some.inj hzero
    obtain ⟨a, rfl⟩ : ∃ a, as = [a] := List.length_eq_one_iff.mp (by
      rw [← List.length_map, ← hareas]; rfl)
    have hone : (⟨0, 0, 0, 0, 0⟩ : Area) = a.area := (List.cons.inj hareas).1
    obtain ⟨hl, ht, hw, hh, hweight⟩ := Area.mk.inj hone
    have hr : a.right = 0 := by omega
    have hb : a.bottom = 0 := by omega
    cases a
    simp_all
  · left
    intro a ha
    rw [hareas] at hall
    exact Written.inRange_of_checked (hints a ha)
      (List.all_eq_true.mp hall a.area (List.mem_map_of_mem ha))

theorem SoundAreas.wellSpelled {areas : List Area} (h : SoundAreas s areas) : WellSpelled s := by
  obtain ⟨as, hwritten, -, hallowed⟩ := h
  refine hwritten.wellSpelled ?_
  rcases hallowed with hin | rfl
  · exact fun a ha => (hin a ha).fits
  · decide

/-- **Area validation**: of the strings that are parsed and approved, those that are
lists of areas as they are to be written, with the corners and weights that are
allowed and these areas as the result, are the ones that are spelled so. -/
theorem area_validation_sound_iff (str : CString) (maxNumAreas : ℕ) (pAreas : List Area)
    (hlen : pAreas.length = maxNumAreas) (p : Parsed)
    (hparse : parseCameraAreaString str maxNumAreas pAreas = some (some p))
    (hrc : p.rc = noError) (happroved : validateCameraAreas p.pAreas p.numAreasFound = true) :
    SoundAreas str.bytes (p.pAreas.take p.numAreasFound) ↔ WellSpelled str.bytes := by
  constructor
  · exact SoundAreas.wellSpelled
  · intro hspelled
    obtain ⟨as, hscan, hareas⟩ := parse_scanned hlen hparse hrc
    obtain ⟨hwritten, hfits⟩ := hspelled.written hscan
    have harea : as.map Written.stored = as.map Written.area :=
      List.map_congr_left fun a ha => Written.stored_of_fits (hfits a ha)
    rw [harea] at hareas
    exact ⟨as, hwritten, hareas, approved hwritten.ints hareas happroved⟩

/-- The string `(0,0,1,1,1)`. -/
def smallArea : CString :=
  ⟨[0x28, 0x30, 0x2C, 0x30, 0x2C, 0x31, 0x2C, 0x31, 0x2C, 0x31, 0x29], by decide⟩

theorem area_validation_sound_iff_small :
    parseCameraAreaString smallArea 1 [⟨0, 0, 0, 0, 0⟩] =
        some (some ⟨noError, [⟨0, 0, 1, 1, 1⟩], 1⟩) ∧
      (SoundAreas smallArea.bytes [⟨0, 0, 1, 1, 1⟩] ↔ WellSpelled smallArea.bytes) :=
  have hparse : parseCameraAreaString smallArea 1 [⟨0, 0, 0, 0, 0⟩] =
      some (some ⟨noError, [⟨0, 0, 1, 1, 1⟩], 1⟩) := rfl
  ⟨hparse, area_validation_sound_iff smallArea 1 [⟨0, 0, 0, 0, 0⟩] rfl _ hparse rfl (by decide)⟩

/-- The string `(2000000000,0,-2000000000,1,1)`. -/
def wrappedArea : CString :=
  ⟨[0x28, 0x32, 0x30, 0x30, 0x30, 0x30, 0x30, 0x30, 0x30, 0x30, 0x30, 0x2C, 0x30, 0x2C, 0x2D, 0x32,
    0x30, 0x30, 0x30, 0x30, 0x30, 0x30, 0x30, 0x30, 0x30, 0x2C, 0x31, 0x2C, 0x31, 0x29], by decide⟩

/-- An area whose left edge is far to the right of its right one is approved: the
width wraps around when it is computed, and back when it is checked. -/
theorem wrapped_area_approved :
    ∃ p, parseCameraAreaString wrappedArea 1 [⟨0, 0, 0, 0, 0⟩] = some (some p) ∧
      p.rc = noError ∧ validateCameraAreas p.pAreas p.numAreasFound = true ∧
      ¬ SoundAreas wrappedArea.bytes (p.pAreas.take p.numAreasFound) := by
  refine ⟨⟨noError, [⟨2000000000, 0, 294967296, 1, 1⟩], 1⟩, by rfl, rfl, by decide, ?_⟩
  intro hsound
  have hvalues : dims 5 wrappedArea.bytes.tail = [2000000000, 0, -2000000000, 1, 1] := by
    decide
  have hfits : ∀ {text fin : List UInt8} {a : Written},
      areaText wrappedArea.bytes = some (text, fin) → dims 5 text.tail = a.values → ¬ a.Fits := by
    intro text fin a htext ha hfits
    have hall : areaText wrappedArea.bytes = some (wrappedArea.bytes, [rparen]) := by
      decide
    obtain ⟨rfl, rfl⟩ := Prod.mk.inj (Option.some.inj (hall.symm.trans htext))
    obtain rfl : (⟨2000000000, 0, -2000000000, 1, 1⟩ : Written) = a :=
      Written.values_inj (hvalues.symm.trans ha)
    exact absurd hfits (by decide)
  cases hsound.wellSpelled with
  | last htext _ ha hf | more htext _ ha hf => exact hfits htext ha hf

end ParamStrings
