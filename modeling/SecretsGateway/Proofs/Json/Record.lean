import SecretsGateway.Proofs.Json.Skip
import SecretsGateway.Secret.Wire

/-!
# Reading back records and lists

A record is read back from an object if its members are: each is looked up by its name, read into the draft and followed by
the next one (`Gathers`), and the draft becomes the record in the end (`reads_record`). A list is read back if its items are
(`reads_list`).
-/

namespace SecretsGateway.Json

/-- Where a value may be left out, only `null` is read as none. -/
theorem reads_optional {α : Type} {read : Bytes → Result α} {v : Value} {a : α} (h : Reads read v a) (hv : v.Sound)
    (hnull : v.write ≠ nullText) : Reads (optional read) v (some a) := by
  intro rest hrest
  obtain ⟨b, bs, hb, hblank, -⟩ := exists_write_eq_cons v hv
  have hskip : skipBlank (v.write ++ rest) = v.write ++ rest := by
    rw [hb, List.cons_append, skipBlank_cons hblank]
  unfold optional
  split
  · next heq =>
    rw [hskip, hb, List.cons_append, List.cons.injEq] at heq
    rw [heq.1] at hb
    exact absurd (hb.trans (hb ▸ isRaw_write hv).eq_nullText) hnull
  · rw [hskip, h rest hrest, Result.andThen_ok]

theorem write_text_ne_nullText (s : String) : (Value.text s).write ≠ nullText := by
  intro h
  cases h

section Records

variable {δ α : Type} {members : List (Member δ)}

/-- The members of an object bring a draft to another, one after the other. -/
inductive Gathers (members : List (Member δ)) : δ → List (String × Value) → δ → Prop
  | nil (d : δ) : Gathers members d [] d
  | cons {d d' d'' : δ} {name : String} {m : Member δ} {v : Value} {ms : List (String × Value)} :
      members.find? (·.name == name) = some m → m.given d = false → Reads (m.read d) v d' →
      Gathers members d' ms d'' → Gathers members d ((name, v) :: ms) d''

theorem Gathers.append {d d' d'' : δ} {ms ms' : List (String × Value)} (h : Gathers members d ms d')
    (h' : Gathers members d' ms' d'') : Gathers members d (ms ++ ms') d'' := by
  induction h with
  | nil => exact h'
  | cons hfind hgiven hv _ ih => exact .cons hfind hgiven hv (ih h')

/-- A member that is set once is gathered. -/
theorem Gathers.of {β : Type} {name : String} {read : Bytes → Result β} {get : δ → Option β} {set : δ → β → δ} {d d' : δ}
    {v : Value} {b : β} {ms : List (String × Value)} (hfind : members.find? (·.name == name) = some (.of name read get set))
    (hget : get d = none) (hv : Reads read v b) (hrest : Gathers members (set d b) ms d') :
    Gathers members d ((name, v) :: ms) d' := by
  refine .cons hfind ?_ ?_ hrest
  · show (get d).isSome = false
    rw [hget]
    rfl
  · intro rest hdelimited
    show (read _).andThen _ = _
    rw [hv rest hdelimited, Result.andThen_ok]

private theorem member_write {d d' : δ} {name : String} {m : Member δ} {v : Value}
    (hfind : members.find? (·.name == name) = some m) (hgiven : m.given d = false) (hv : Reads (m.read d) v d')
    {rest : Bytes} (hrest : Delimited rest) :
    member members d ((Utf8.encode name).flatMap escape ++ quote :: colon :: (v.write ++ rest)) = .ok (d', rest) := by
  have hcolon : colonAfterKey (colon :: (v.write ++ rest)) = .ok ((), v.write ++ rest) := by
    rw [colonAfterKey, skipBlank_cons rfl]
    rfl
  simp only [member, text_writeText, Result.andThen_ok, hfind, hgiven, hcolon, Bool.false_eq_true, ↓reduceIte]
  exact hv rest hrest

/-- The members that follow in an object, up to its closing bracket. -/
private def continued : List (String × Value) → Bytes
  | [] => [closeObject]
  | m :: ms => comma :: (Value.writeMembers (m :: ms) ++ [closeObject])

private theorem writeMembers_append (name : String) (v : Value) (ms : List (String × Value)) (rest : Bytes) :
    Value.writeMembers ((name, v) :: ms) ++ closeObject :: rest =
      quote :: ((Utf8.encode name).flatMap escape ++ quote :: colon :: (v.write ++ (continued ms ++ rest))) := by
  cases ms with
  | nil => simp [Value.writeMembers, writeText, continued]
  | cons m ms => simp [Value.writeMembers, writeText, continued]

private theorem delimited_continued (ms : List (String × Value)) (rest : Bytes) : Delimited (continued ms ++ rest) := by
  cases ms with
  | nil => exact delimited_closeObject _
  | cons m ms => exact delimited_comma _

private theorem objectMembers_step {d d' : δ} {name : String} {m : Member δ} {v : Value} {ms : List (String × Value)}
    (hfind : members.find? (·.name == name) = some m) (hgiven : m.given d = false) (hv : Reads (m.read d) v d')
    {first : Bool} {s rest : Bytes} (hkey : nextKey first s = .ok
      (some ((Utf8.encode name).flatMap escape ++ quote :: colon :: (v.write ++ (continued ms ++ rest)))))
    (hlength : (continued ms ++ rest).length < s.length) :
    objectMembers members first d s = objectMembers members false d' (continued ms ++ rest) := by
  rw [objectMembers]
  simp only [hkey, member_write hfind hgiven hv (delimited_continued ms rest), hlength, ↓reduceIte]

private theorem objectMembers_close (d : δ) (first : Bool) (rest : Bytes) :
    objectMembers members first d (closeObject :: rest) = .ok (d, closeObject :: rest) := by
  rw [objectMembers]
  rfl

private theorem objectMembers_continued {d d' : δ} {ms : List (String × Value)} (h : Gathers members d ms d') (rest : Bytes) :
    objectMembers members false d (continued ms ++ rest) = .ok (d', closeObject :: rest) := by
  induction h with
  | nil d => exact objectMembers_close d false rest
  | @cons d d' d'' name m v ms hfind hgiven hv _ ih =>
    have hwrite : continued ((name, v) :: ms) ++ rest = comma ::
        quote :: ((Utf8.encode name).flatMap escape ++ quote :: colon :: (v.write ++ (continued ms ++ rest))) := by
      rw [← writeMembers_append]
      simp [continued]
    rw [hwrite, objectMembers_step hfind hgiven hv rfl ?_, ih]
    simp
    omega

private theorem objectMembers_write {d d' : δ} {ms : List (String × Value)} (h : Gathers members d ms d') (rest : Bytes) :
    objectMembers members true d (Value.writeMembers ms ++ closeObject :: rest) = .ok (d', closeObject :: rest) := by
  cases h with
  | nil => exact objectMembers_close d true rest
  | @cons _ d' _ name m v ms hfind hgiven hv hms =>
    rw [writeMembers_append, objectMembers_step hfind hgiven hv rfl ?_, objectMembers_continued hms rest]
    simp
    omega

/-- A record is read back from an object whose members give its draft. -/
theorem reads_record {shape : Shape δ α} {ms : List (String × Value)} {d : δ} {a : α}
    (hms : Gathers shape.members shape.start ms d) (ha : shape.finish d = .ok a) : Reads shape.read (.object ms) a := by
  intro rest _
  have hwrite : (Value.object ms).write ++ rest = openObject :: (Value.writeMembers ms ++ closeObject :: rest) := by
    simp [Value.write]
  have hclose : closeMap (closeObject :: rest) = .ok ((), rest) := rfl
  rw [hwrite, Shape.read, skipBlank_cons rfl]
  show shape.ofObject _ = _
  rw [Shape.ofObject, objectMembers_write hms, Result.andThen_ok]
  simp only [ha, hclose, Result.andThen_ok]
  rfl

end Records

section Lists

variable {α : Type} {read : Bytes → Result α} {write : α → Value}

/-- The items that follow in a list, up to its closing bracket. -/
private def further : List Value → Bytes
  | [] => [closeList]
  | v :: vs => comma :: (Value.writeItems (v :: vs) ++ [closeList])

private theorem writeItems_append (v : Value) (vs : List Value) (rest : Bytes) :
    Value.writeItems (v :: vs) ++ closeList :: rest = v.write ++ (further vs ++ rest) := by
  cases vs with
  | nil => simp [Value.writeItems, further]
  | cons u vs => simp [Value.writeItems, further]

private theorem delimited_further (vs : List Value) (rest : Bytes) : Delimited (further vs ++ rest) := by
  cases vs with
  | nil => exact delimited_closeList _
  | cons v vs => exact delimited_comma _

private theorem nextElement_first {v : Value} (hv : v.Sound) (rest : Bytes) :
    nextElement true (v.write ++ rest) = .ok (some (v.write ++ rest)) := by
  obtain ⟨b, bs, hb, hblank, hclose⟩ := exists_write_eq_cons v hv
  simp only [nextElement, hb, List.cons_append, skipBlank_cons hblank, hclose, ↓reduceIte]

private theorem nextElement_further {v : Value} (hv : v.Sound) (rest : Bytes) :
    nextElement false (comma :: (v.write ++ rest)) = .ok (some (v.write ++ rest)) := by
  obtain ⟨b, bs, hb, hblank, hclose⟩ := exists_write_eq_cons v hv
  have hcomma : comma ≠ closeList := by decide
  simp only [nextElement, hb, List.cons_append, skipBlank_cons hblank, skipBlank_cons (show isBlank comma = false from rfl),
    hclose, hcomma, Bool.false_eq_true, ↓reduceIte]

private theorem elements_close (done : List α) (first : Bool) (rest : Bytes) :
    elements read first done (closeList :: rest) = .ok (done.reverse, closeList :: rest) := by
  rw [elements]
  rfl

private theorem elements_step {v : Value} {a : α} {vs : List Value} (hv : Reads read v a) {first : Bool} {s rest : Bytes}
    (hnext : nextElement first s = .ok (some (v.write ++ (further vs ++ rest))))
    (hlength : (further vs ++ rest).length < s.length) (done : List α) :
    elements read first done s = elements read false (a :: done) (further vs ++ rest) := by
  rw [elements]
  simp only [hnext, hv _ (delimited_further vs rest), hlength, ↓reduceIte]

private theorem elements_further (as done : List α) (hsound : ∀ a ∈ as, (write a).Sound)
    (h : ∀ a ∈ as, Reads read (write a) a) (rest : Bytes) :
    elements read false done (further (as.map write) ++ rest) = .ok (done.reverse ++ as, closeList :: rest) := by
  induction as generalizing done with
  | nil =>
    rw [List.append_nil]
    exact elements_close done false rest
  | cons a as ih =>
    have hwrite : further ((a :: as).map write) ++ rest = comma :: ((write a).write ++ (further (as.map write) ++ rest)) := by
      rw [← writeItems_append]
      simp [further]
    have hnext := nextElement_further (hsound a List.mem_cons_self) (further (as.map write) ++ rest)
    rw [hwrite, elements_step (h a List.mem_cons_self) hnext ?_, ih]
    · simp
    · exact fun a' ha => hsound a' (List.mem_cons_of_mem a ha)
    · exact fun a' ha => h a' (List.mem_cons_of_mem a ha)
    · simp only [List.length_cons, List.length_append]
      omega

/-- A list is read back if its items are. -/
theorem reads_list (as : List α) (hsound : ∀ a ∈ as, (write a).Sound) (h : ∀ a ∈ as, Reads read (write a) a) :
    Reads (list read) (.list (as.map write)) as := by
  intro rest _
  have hwrite : (Value.list (as.map write)).write ++ rest =
      openList :: (Value.writeItems (as.map write) ++ closeList :: rest) := by
    simp [Value.write]
  have helements : elements read true [] (Value.writeItems (as.map write) ++ closeList :: rest) =
      .ok (as, closeList :: rest) := by
    cases as with
    | nil => exact elements_close [] true rest
    | cons a as =>
      have ha := h a List.mem_cons_self
      have hrest := elements_further as [a] (fun a' ha => hsound a' (List.mem_cons_of_mem a ha))
        (fun a' ha => h a' (List.mem_cons_of_mem a ha)) rest
      rw [List.map_cons, writeItems_append,
        elements_step ha (nextElement_first (hsound a List.mem_cons_self) _) ?_, hrest]
      · rfl
      · obtain ⟨b, bs, hb, -⟩ := exists_write_eq_cons (write a) (hsound a List.mem_cons_self)
        simp only [hb, List.length_cons, List.length_append]
        omega
  have hclose : closeArray (closeList :: rest) = .ok ((), rest) := rfl
  rw [hwrite, list, skipBlank_cons rfl]
  simp only [helements, hclose, Result.andThen_ok, ↓reduceIte]
  rfl

end Lists

end SecretsGateway.Json
