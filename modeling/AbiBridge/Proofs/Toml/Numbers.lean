import AbiBridge.Proofs.Number.Shortest
import AbiBridge.Proofs.Toml.Values

/-!
Floating-point numbers are read back.

A number is written with its digits around a point, zeros being filled in on either side, or with an
exponent. In whichever form they are written, the digits and the places behind the point give the
decimal again, up to zeros at its end; so they are rounded to the number.

* `decimal_of_tail`: a decimal, by what stands behind its whole part;
* `ReadsAsDecimal`: a text without sign that is read as a decimal;
* `render_readsAsDecimal`: every layout writes a decimal that is read as an equal one;
* `readsBack_number`: the text of a finite number is read back as it.
-/

namespace AbiBridge.Toml

open Binary64 (IsCanonical ShortDecimal)

/-! ### Digits -/

lemma ofDigits_append_singleton (base : ℕ) (ds : List Char) (d : Char) :
    ofDigits base (ds ++ [d]) = ofDigits base ds * base + (Text.hexValue? d).getD 0 := by
  rw [ofDigits, List.foldl_append]
  rfl

/-- Zeros behind the digits. -/
lemma ofDigits_append_zeros (ds : List Char) (n : ℕ) :
    ofDigits 10 (ds ++ List.replicate n '0') = ofDigits 10 ds * 10 ^ n := by
  induction n with
  | zero => simp
  | succ n ih =>
      rw [List.replicate_succ', ← List.append_assoc, ofDigits_append_singleton, ih, pow_succ]
      rw [Nat.mul_assoc]
      rfl

/-- Zeros in front of the digits. -/
lemma ofDigits_zeros_append (n : ℕ) (ds : List Char) :
    ofDigits 10 (List.replicate n '0' ++ ds) = ofDigits 10 ds := by
  induction n with
  | zero => rfl
  | succ n ih =>
      rw [← ih, List.replicate_succ, List.cons_append, ofDigits, List.foldl_cons]
      rfl

/-- The digits of a positive number begin with none that is zero. -/
lemma head?_toDigits_ne {n : ℕ} (hn : 0 < n) : (Nat.toDigits 10 n).head? ≠ some '0' := by
  intro hhead
  have hzero := congrArg (ofDigits 10) ((isDecimal_toDigits n).canonical hhead)
  rw [ofDigits_toDigits] at hzero
  exact hn.ne' hzero

/-- Digits that begin with those of a positive number, or with the first of them. -/
lemma isDecimal_of_head?_eq {n : ℕ} (hn : 0 < n) {ds : List Char} (hne : ds ≠ [])
    (hdigits : ∀ d ∈ ds, d.isDigit = true) (hhead : ds.head? = (Nat.toDigits 10 n).head?) :
    IsDecimal ds :=
  ⟨hne, hdigits, fun hzero => absurd (hhead ▸ hzero) (head?_toDigits_ne hn)⟩

/-! ### Parts of a decimal -/

section Parts

variable {rest : List Char}

/-- The places behind the point. -/
lemma fraction_append (hrest : EndsDigits rest) {fs : List Char} (hne : fs ≠ [])
    (hfs : ∀ d ∈ fs, d.isDigit = true) : fraction ('.' :: (fs ++ rest)) = (some fs, rest) := by
  obtain ⟨d, ds, rfl⟩ := List.exists_cons_of_ne_nil hne
  have hrun := digitRun_append hrest hfs
  rw [List.cons_append] at hrun ⊢
  rw [fraction, digits?, if_pos (hfs d List.mem_cons_self), hrun]

/-- The exponent with its sign. -/
lemma exponent_append (hrest : Ends rest) {power : ℤ} {ds : List Char} (hne : ds ≠ [])
    (hds : ∀ d ∈ ds, d.isDigit = true) (hpower : ofDigits 10 ds = power.natAbs) :
    exponent ('e' :: (if power < 0 then '-' else '+') :: (ds ++ rest)) = (some power, rest) := by
  obtain ⟨d, r, rfl⟩ := List.exists_cons_of_ne_nil hne
  have hrun := digitRun_append hrest.endsDigits hds
  rw [List.cons_append] at hrun ⊢
  rw [exponent, if_pos (by decide)]
  by_cases hnegative : power < 0
  · have hvalue : -(power.natAbs : ℤ) = power := by omega
    rw [if_pos hnegative]
    simp only [Binary64.readSign]
    rw [digits?, if_pos (hds d List.mem_cons_self), hrun]
    simp only [hpower, if_true, hvalue]
  · have hvalue : (power.natAbs : ℤ) = power := by omega
    rw [if_neg hnegative]
    simp only [Binary64.readSign]
    rw [digits?, if_pos (hds d List.mem_cons_self), hrun]
    simp only [hpower, Bool.false_eq_true, if_false, hvalue]

/-- A decimal with places behind a point or an exponent. -/
lemma decimal_of_tail {ds tail r : List Char} (hds : IsDecimal ds) (htail : EndsDigits tail)
    {places : Option (List Char)} {power : Option ℤ} (hplaces : fraction tail = (places, r))
    (hpower : exponent r = (power, rest)) (hsome : (places.isNone && power.isNone) = false)
    (negative : Bool) : decimal negative (ds ++ tail) =
      .ok (.number (Binary64.ofDecimal negative (ofDigits 10 (ds ++ places.getD []))
        (power.getD 0 - (places.getD []).length)), rest) := by
  rw [decimal, whole?_append htail hds]
  simp only [hplaces, hpower, hsome, Bool.false_eq_true, if_false]
  rfl

end Parts

/-! ### Decimals -/

/-- A text without sign that is read as a decimal. -/
inductive ReadsAsDecimal : List Char → ℕ → ℤ → Prop where
  | intro {ds tail : List Char} {digits : ℕ} {exponent : ℤ} (whole : IsDecimal ds)
      (unreturned : '\r' ∉ tail) (ends : ∀ rest, Ends rest → EndsDigits (tail ++ rest))
      (reads : ∀ negative rest, Ends rest → decimal negative (ds ++ (tail ++ rest)) =
        .ok (.number (Binary64.ofDecimal negative digits exponent), rest)) :
      ReadsAsDecimal (ds ++ tail) digits exponent

/-- A decimal is read back behind its sign. -/
lemma ReadsAsDecimal.readsBack {cs : List Char} {digits : ℕ} {exponent : ℤ}
    (h : ReadsAsDecimal cs digits exponent) (negative : Bool) {text : String}
    (htext : text.toList = minus negative ++ cs) :
    ReadsBack (.number (Binary64.ofDecimal negative digits exponent)) text := by
  obtain ⟨hwhole, hunreturned, hends, hreads⟩ := h
  exact readsBack_signed htext hwhole hunreturned hends (hreads negative)

/-- Behind a point or the letter of an exponent no digit of the whole part follows. -/
lemma endsDigits_cons {c : Char} (h : c ∈ ['.', 'e']) (r : List Char) : EndsDigits (c :: r) := by
  rintro d ⟨⟩
  exact (List.mem_append (s := ['.', 'e'])).mpr (.inl h)

/-- Digits with a point between them. -/
lemma readsAsDecimal_point {ds fs : List Char} (hds : IsDecimal ds) (hne : fs ≠ [])
    (hfs : ∀ d ∈ fs, d.isDigit = true) :
    ReadsAsDecimal (ds ++ '.' :: fs) (ofDigits 10 (ds ++ fs)) (-fs.length) := by
  have hends (rest : List Char) : EndsDigits ('.' :: fs ++ rest) := endsDigits_cons (by decide) _
  refine .intro hds (List.not_mem_cons_of_ne_of_not_mem (by decide) (return_notMem_of_digits hfs))
    (fun rest _ => hends rest) fun negative rest hrest => ?_
  rw [decimal_of_tail hds (hends rest) (fraction_append hrest.endsDigits hne hfs)
    (fraction_exponent_ends hrest).2 rfl]
  simp

/-- Digits with an exponent behind them, and places behind a point between the two if there are
any. -/
lemma readsAsDecimal_power {ds point fs ps : List Char} (hds : IsDecimal ds)
    (hpoint : point = [] ∧ fs = [] ∨ point = '.' :: fs ∧ fs ≠ [])
    (hfs : ∀ d ∈ fs, d.isDigit = true) (hne : ps ≠ []) (hps : ∀ d ∈ ps, d.isDigit = true)
    {power : ℤ} (hvalue : ofDigits 10 ps = power.natAbs) :
    ReadsAsDecimal (ds ++ (point ++ 'e' :: (if power < 0 then '-' else '+') :: ps))
      (ofDigits 10 (ds ++ fs)) (power - fs.length) := by
  have hpower (rest : List Char) (hrest : Ends rest) := exponent_append hrest hne hps hvalue
  have hends (r : List Char) : EndsDigits ('e' :: r) := endsDigits_cons (by decide) r
  have hreturn : '\r' ∉ 'e' :: (if power < 0 then '-' else '+') :: ps := by
    have hsign : '\r' ≠ if power < 0 then '-' else '+' := by split <;> decide
    exact List.not_mem_cons_of_ne_of_not_mem (by decide)
      (List.not_mem_cons_of_ne_of_not_mem hsign (return_notMem_of_digits hps))
  rcases hpoint with ⟨rfl, rfl⟩ | ⟨rfl, hsome⟩
  · refine .intro hds hreturn (fun _ _ => hends _) fun sign rest hrest => ?_
    rw [List.nil_append, List.cons_append, List.cons_append,
      decimal_of_tail hds (hends _) rfl (hpower rest hrest) rfl]
    rfl
  · refine .intro hds ?_ (fun _ _ => endsDigits_cons (by decide) _) fun sign rest hrest => ?_
    · rw [List.mem_append, not_or]
      exact ⟨List.not_mem_cons_of_ne_of_not_mem (by decide) (return_notMem_of_digits hfs), hreturn⟩
    · rw [List.append_assoc, List.cons_append, List.cons_append, List.cons_append,
        decimal_of_tail hds (endsDigits_cons (by decide) _) (fraction_append (hends _) hsome hfs)
          (hpower rest hrest) rfl]
      rfl

/-! ### Layouts -/

lemma isDigit_of_mem_zeros {count : ℕ} : ∀ d ∈ List.replicate count '0', d.isDigit = true := by
  intro d hd
  rw [List.eq_of_mem_replicate hd]
  rfl

lemma isDecimal_zero : IsDecimal ['0'] :=
  ⟨List.cons_ne_nil _ _, List.forall_mem_singleton.mpr rfl, fun _ => rfl⟩

/-- Zeros between the point and the digits. -/
lemma readsAsDecimal_zeros_front (n count : ℕ) :
    ReadsAsDecimal ('0' :: '.' :: List.replicate count '0' ++ Nat.toDigits 10 n) n
      (-(count + (Nat.toDigits 10 n).length : ℕ)) := by
  have hdigits : ofDigits 10 (['0'] ++ List.replicate count '0' ++ Nat.toDigits 10 n) = n :=
    (ofDigits_zeros_append (count + 1) _).trans (ofDigits_toDigits n)
  have hne : List.replicate count '0' ++ Nat.toDigits 10 n ≠ [] :=
    List.append_ne_nil_of_right_ne_nil _ Nat.toDigits_ne_nil
  have hread := readsAsDecimal_point isDecimal_zero hne fun d hd =>
    (List.mem_append.mp hd).elim (isDigit_of_mem_zeros d) ((isDecimal_toDigits n).digits d)
  rw [List.length_append, List.length_replicate, ← List.append_assoc, hdigits] at hread
  exact hread

section Positive

variable {n : ℕ} (hn : 0 < n)

include hn

/-- Zeros between the digits and the point, and one behind it. -/
lemma readsAsDecimal_zeros_behind (count : ℕ) :
    ReadsAsDecimal (Nat.toDigits 10 n ++ List.replicate count '0' ++ ['.', '0'])
      (n * 10 ^ (count + 1)) (-1) := by
  have hwhole : IsDecimal (Nat.toDigits 10 n ++ List.replicate count '0') :=
    isDecimal_of_head?_eq hn (List.append_ne_nil_of_left_ne_nil Nat.toDigits_ne_nil _)
      (fun d hd => (List.mem_append.mp hd).elim ((isDecimal_toDigits n).digits d)
        (isDigit_of_mem_zeros d))
      (List.head?_append_of_ne_nil _ Nat.toDigits_ne_nil)
  have hread := readsAsDecimal_point hwhole isDecimal_zero.nonempty isDecimal_zero.digits
  have hdigits := ofDigits_append_zeros (Nat.toDigits 10 n) (count + 1)
  rw [ofDigits_toDigits, List.replicate_succ', ← List.append_assoc] at hdigits
  rwa [hdigits] at hread

/-- The first digits of a positive number. -/
lemma isDecimal_take {count : ℕ} (hcount : 0 < count) :
    IsDecimal ((Nat.toDigits 10 n).take count) := by
  obtain ⟨d, r, hcons⟩ := List.exists_cons_of_ne_nil (l := Nat.toDigits 10 n) Nat.toDigits_ne_nil
  obtain ⟨count, rfl⟩ := Nat.exists_eq_add_one_of_ne_zero hcount.ne'
  refine isDecimal_of_head?_eq hn ?_ (fun d hd => (isDecimal_toDigits n).digits d
    (List.mem_of_mem_take hd)) ?_
  · rw [hcons]
    exact List.cons_ne_nil _ _
  · rw [hcons]
    rfl

/-- A point between the digits. -/
lemma readsAsDecimal_between {count : ℕ} (hcount : 0 < count)
    (hlt : count < (Nat.toDigits 10 n).length) :
    ReadsAsDecimal ((Nat.toDigits 10 n).take count ++ '.' :: (Nat.toDigits 10 n).drop count) n
      (-((Nat.toDigits 10 n).length - count : ℕ)) := by
  have hne : (Nat.toDigits 10 n).drop count ≠ [] := by simpa using hlt
  have hread := readsAsDecimal_point (isDecimal_take hn hcount) hne fun d hd =>
    (isDecimal_toDigits n).digits d (List.mem_of_mem_drop hd)
  rwa [List.take_append_drop, ofDigits_toDigits, List.length_drop] at hread

/-- Digits around a point are read as an equal decimal. -/
lemma positional_readsAsDecimal (k : ℤ) : ∃ digits exponent,
    ReadsAsDecimal (NumberLayout.positional (Nat.toDigits 10 n)
      (k + (Nat.toDigits 10 n).length)) digits exponent ∧
      (digits * 10 ^ exponent : ℚ) = n * 10 ^ k := by
  rw [NumberLayout.positional]
  split
  · next hplaces =>
    refine ⟨_, _, readsAsDecimal_zeros_front n _, ?_⟩
    congr 2
    omega
  next hplaces =>
  dsimp only
  split
  · next hle =>
    refine ⟨_, _, readsAsDecimal_zeros_behind hn _, ?_⟩
    generalize hcount : (k + (Nat.toDigits 10 n).length).toNat - (Nat.toDigits 10 n).length = count
    obtain rfl : k = count := by omega
    push_cast
    rw [zpow_natCast, zpow_neg_one]
    ring
  · next hlt =>
    refine ⟨_, _, readsAsDecimal_between hn (by omega) (by omega), ?_⟩
    congr 2
    omega

/-- Digits with an exponent are read as the decimal. -/
lemma scientific_readsAsDecimal (l : NumberLayout) (lead : ℤ) :
    ReadsAsDecimal (l.scientific (Nat.toDigits 10 n) lead) n
      (lead - ((Nat.toDigits 10 n).length - 1 : ℕ)) := by
  have hne : List.replicate (l.exponentDigits - (Nat.toDigits 10 lead.natAbs).length) '0' ++
      Nat.toDigits 10 lead.natAbs ≠ [] :=
    List.append_ne_nil_of_right_ne_nil _ Nat.toDigits_ne_nil
  have hvalue : ofDigits 10 (List.replicate
      (l.exponentDigits - (Nat.toDigits 10 lead.natAbs).length) '0' ++
        Nat.toDigits 10 lead.natAbs) = lead.natAbs := by
    rw [ofDigits_zeros_append, ofDigits_toDigits]
  have hread (point : List Char) (hpoint : point = [] ∧ (Nat.toDigits 10 n).drop 1 = [] ∨
      point = '.' :: (Nat.toDigits 10 n).drop 1 ∧ (Nat.toDigits 10 n).drop 1 ≠ []) :=
    readsAsDecimal_power (isDecimal_take hn one_pos) hpoint
      (fun d hd => (isDecimal_toDigits n).digits d (List.mem_of_mem_drop hd)) hne
      (fun d hd => (List.mem_append.mp hd).elim (isDigit_of_mem_zeros d)
        ((isDecimal_toDigits lead.natAbs).digits d)) hvalue
  simp only [List.take_append_drop, ofDigits_toDigits, List.length_drop, ← List.append_assoc]
    at hread
  rw [NumberLayout.scientific]
  split
  · next hnil => exact hread [] (.inl ⟨rfl, hnil⟩)
  · next hsome => exact hread _ (.inr ⟨rfl, hsome⟩)

/-- What a layout writes is read as an equal decimal. -/
lemma render_readsAsDecimal (l : NumberLayout) (k : ℤ) : ∃ digits exponent,
    ReadsAsDecimal (l.render ⟨n, k⟩) digits exponent ∧
      (digits * 10 ^ exponent : ℚ) = n * 10 ^ k := by
  rw [NumberLayout.render]
  dsimp only
  split
  · have hplaces : k + (Nat.toDigits 10 n).length - 1 + 1 = k + (Nat.toDigits 10 n).length := by
      omega
    rw [hplaces]
    exact positional_readsAsDecimal hn k
  · have hlength : 0 < (Nat.toDigits 10 n).length := Nat.length_toDigits_pos
    refine ⟨_, _, scientific_readsAsDecimal hn l _, ?_⟩
    congr 2
    omega

end Positive

/-! ### Numbers -/

/-- The text of a finite number is read back as it. -/
lemma readsBack_number {m : ℕ} {e : ℤ} (h : IsCanonical m e) (negative : Bool) :
    ReadsBack (.number (.finite negative m e)) (Binary64.text (.finite negative m e)) := by
  have hsign : (if negative = true then "-" else "").toList = minus negative := by
    cases negative <;> rfl
  rw [Binary64.text]
  split
  · next hzero =>
    subst hzero
    obtain rfl : e = Binary64.minExponent := h.full.resolve_left (by norm_num)
    have hread := readsAsDecimal_point isDecimal_zero isDecimal_zero.nonempty isDecimal_zero.digits
    exact hread.readsBack negative (by rw [String.toList_append, hsign]; rfl)
  · next hpositive =>
    have hm : 0 < m := Nat.pos_of_ne_zero hpositive
    obtain ⟨digits, exponent, hread, hsame⟩ := render_readsAsDecimal
      (Binary64.digits_shortest_pos h hm) Binary64.layout (Binary64.shortest m e).exponent
    rw [← Binary64.ofDecimal_shortest h hm hsame negative]
    exact hread.readsBack negative (by rw [String.toList_append, hsign, String.toList_ofList])

end AbiBridge.Toml
