import ConfigPanel.Panel

/-!
# Panel — which answers can be encoded

A text can be encoded exactly when no surrogate stands alone in it (`exists_encode_iff`).  Nothing
that the panel adds of its own holds one, and neither escaping nor quoting adds or hides one, so it
comes down to the users of the records that are written:

* `isString_written_toValue`, `isString_written_listing`: a record and the listing, as values.
* `Row.isString_markup`, `Page.isString_render`: a row and the page.
* `send_of_isString`, `send_of_not_isString`: what becomes of a draft.
-/

namespace ConfigPanel

/-! ### Texts without lone surrogates -/

/-- No surrogate stands alone in the text. -/
def Text.IsString (t : Text) : Prop := ∀ k, CodePoint.lone k ∉ t

/-- No surrogate stands alone in the user of the record. -/
def Record.Encodable (r : Record) : Prop := ∀ u, r.user = some u → u.IsString

namespace Text

@[simp] theorem isString_nil : IsString [] := fun _ => List.not_mem_nil

theorem isString_cons_iff {p : CodePoint} {t : Text} :
    IsString (p :: t) ↔ (∀ k, p ≠ .lone k) ∧ t.IsString := by
  simp only [IsString, List.mem_cons, not_or, forall_and, ne_eq, eq_comm]

@[simp] theorem isString_char_cons_iff {c : Char} {t : Text} :
    IsString (.char c :: t) ↔ t.IsString := by
  simp [isString_cons_iff]

@[simp] theorem isString_append_iff {s t : Text} : IsString (s ++ t) ↔ s.IsString ∧ t.IsString := by
  simp only [IsString, List.mem_append, not_or, forall_and]

theorem isString_flatMap_iff {α : Type} {xs : List α} {f : α → Text} :
    IsString (xs.flatMap f) ↔ ∀ x ∈ xs, (f x).IsString := by
  simp only [IsString, List.mem_flatMap, not_exists, not_and]
  exact ⟨fun h x hx k => h k x hx, fun h k x hx => h x hx k⟩

@[simp] theorem isString_map_char (cs : List Char) : IsString (cs.map .char) := by
  simp [IsString]

@[simp] theorem isString_of (s : String) : (of s).IsString := isString_map_char _

theorem isString_ite {c : Prop} [Decidable c] {s t : Text} (hs : s.IsString) (ht : t.IsString) :
    IsString (if c then s else t) := by
  split
  · exact hs
  · exact ht

/-- A text that goes over into another, code point by code point, keeps its lone surrogates. -/
theorem isString_flatMap_of {f : CodePoint → Text} (hlone : ∀ k, ¬ (f (.lone k)).IsString)
    (hchar : ∀ c, (f (.char c)).IsString) (t : Text) : IsString (t.flatMap f) ↔ t.IsString := by
  rw [isString_flatMap_iff]
  constructor
  · exact fun h k hk => hlone k (h _ hk)
  · intro h p hp
    cases p with
    | char c => exact hchar c
    | lone k => exact absurd hp (h k)

/-- A lone surrogate has no encoding. -/
theorem not_isString_lone (k : Fin 2048) : ¬ IsString [.lone k] :=
  fun h => h k (List.mem_singleton_self _)

/-- A text is that of a string exactly when no surrogate stands alone in it. -/
theorem exists_eq_of_iff {t : Text} : (∃ s, t = of s) ↔ t.IsString := by
  constructor
  · rintro ⟨s, rfl⟩
    exact isString_of s
  · intro h
    induction t with
    | nil => exact ⟨"", rfl⟩
    | cons p t ih =>
        obtain ⟨hp, ht⟩ := isString_cons_iff.mp h
        obtain ⟨s, rfl⟩ := ih ht
        cases p with
        | lone k => exact absurd rfl (hp k)
        | char c => exact ⟨String.ofList (c :: s.toList), by simp [of]⟩

/-- A text can be encoded exactly when no surrogate stands alone in it. -/
theorem exists_encode_iff {t : Text} : (∃ s, t.encode = .ok s) ↔ t.IsString := by
  simp only [encode_eq_ok_iff, exists_eq_of_iff]

end Text

/-! ### Written values -/

namespace Json

open Text

/-- Quoting neither adds nor hides a lone surrogate. -/
@[simp] theorem isString_writtenText (t : Text) : (writtenText t).IsString ↔ t.IsString := by
  have hlone (k : Fin 2048) : ¬ (writtenCodePoint (.lone k)).IsString := not_isString_lone k
  have hchar (c : Char) : (writtenCodePoint (.char c)).IsString := by
    simp only [writtenCodePoint]
    repeat refine isString_ite (isString_of _) ?_
    exact isString_ite (isString_map_char _) (isString_map_char [c])
  rw [writtenText, isString_char_cons_iff, isString_append_iff, isString_flatMap_of hlone hchar]
  exact and_iff_left (isString_map_char ['\x22'])

theorem isString_writtenItems {vs : List Value} :
    (writtenItems vs).IsString ↔ ∀ v ∈ vs, (written v).IsString := by
  induction vs with
  | nil => simp [writtenItems, isString_nil]
  | cons v vs ih =>
      cases vs with
      | nil => simp [writtenItems]
      | cons w vs =>
          rw [writtenItems, isString_append_iff, isString_char_cons_iff, ih]
          · simp
          · simp

theorem isString_writtenMembers {ms : Members} :
    (writtenMembers ms).IsString ↔ ∀ m ∈ ms, m.1.IsString ∧ (written m.2).IsString := by
  induction ms with
  | nil => simp [writtenMembers, isString_nil]
  | cons m ms ih =>
      obtain ⟨k, v⟩ := m
      cases ms with
      | nil =>
          rw [writtenMembers]
          simp
      | cons n ms =>
          rw [writtenMembers, isString_append_iff, isString_char_cons_iff, isString_append_iff,
            isString_char_cons_iff, ih, isString_writtenText]
          · simp [and_assoc]
          · simp

@[simp] theorem isString_written_text {t : Text} : (written (.text t)).IsString ↔ t.IsString := by
  rw [written, isString_writtenText]

@[simp] theorem isString_written_list {vs : List Value} :
    (written (.list vs)).IsString ↔ ∀ v ∈ vs, (written v).IsString := by
  rw [written, isString_char_cons_iff, isString_append_iff, isString_writtenItems]
  exact and_iff_left (isString_map_char [']'])

@[simp] theorem isString_written_object {ms : Members} :
    (written (.object ms)).IsString ↔ ∀ m ∈ ms, m.1.IsString ∧ (written m.2).IsString := by
  rw [written, isString_char_cons_iff, isString_append_iff, isString_writtenMembers]
  exact and_iff_left (isString_map_char ['\x7d'])

@[simp] theorem isString_written_ofNat? (n? : Option Nat) :
    (written (Value.ofNat? n?)).IsString := by
  cases n? with
  | none => exact isString_of _
  | some n => exact isString_of _

@[simp] theorem isString_written_ofText? {t? : Option Text} :
    (written (Value.ofText? t?)).IsString ↔ ∀ t, t? = some t → t.IsString := by
  cases t? with
  | none => exact iff_of_true (isString_of "null") nofun
  | some t =>
      refine isString_written_text.trans ⟨fun h u hu => ?_, fun h => h t rfl⟩
      exact Option.some.inj hu ▸ h

end Json

/-! ### Records and rows -/

/-- A record that is written out can be encoded exactly when its user can. -/
@[simp] theorem Record.isString_written_toValue (r : Record) :
    (Json.written r.toValue).IsString ↔ r.Encodable := by
  simp [toValue, members, Encodable]

namespace Labels

@[simp] theorem isString_orUnknown {t : Text} : (orUnknown t).IsString ↔ t.IsString := by
  cases t with
  | nil => exact iff_of_true (Text.isString_of _) Text.isString_nil
  | cons p t => rfl

theorem isString_dateLines (date : Option Nat) : (dateLines date).IsString := by
  match date with
  | none | some 0 => exact Text.isString_nil
  | some (n + 1) => exact Text.isString_of _

end Labels

namespace Record

@[simp] theorem isString_labels_version (r : Record) : r.labels.version.IsString :=
  Text.isString_append_iff.mpr ⟨Text.isString_of _, Text.isString_of _⟩

@[simp] theorem isString_labels_date (r : Record) : r.labels.date.IsString :=
  Labels.isString_orUnknown.mpr (Labels.isString_dateLines _)

@[simp] theorem isString_labels_user (r : Record) : r.labels.user.IsString ↔ r.Encodable := by
  have huser : r.labels.user
      = Labels.authorOpening ++ Labels.orUnknown (r.user.getD []) ++ Labels.authorClosing := rfl
  have hopening : Labels.authorOpening.IsString := Text.isString_of _
  have hclosing : Labels.authorClosing.IsString := Text.isString_of _
  rw [huser, Encodable]
  cases r.user with
  | none => simp [hopening, hclosing]
  | some u => simp [hopening, hclosing]

@[simp] theorem isString_written_labels (r : Record) :
    (Json.written r.labels.toValue).IsString ↔ r.Encodable := by
  simp [Labels.toValue]

end Record

/-- Escaping neither adds nor hides a lone surrogate. -/
@[simp] theorem Markup.isString_escape {t : Text} : (escape t).IsString ↔ t.IsString := by
  refine Text.isString_flatMap_of Text.not_isString_lone (fun c => ?_) t
  rw [escapeCodePoint]
  split
  · exact Text.isString_of _
  · exact Text.isString_map_char [c]

/-- A row can be encoded exactly when the user of its record can. -/
@[simp] theorem Row.isString_markup (r : Row) : r.markup.IsString ↔ r.record.Encodable := by
  have hclass : r.cssClass.IsString := Text.isString_ite (Text.isString_of _) (Text.isString_of _)
  have hkey : (Text.ofNat r.key).IsString := Text.isString_of _
  simp [markup, filled, Template.fill, template, fields, Template.fillAfter, labels, hclass, hkey]

namespace Page

@[simp] theorem isString_head (title : String) : (head title).IsString := by
  simp [head, opening, middle, beforeRows, lines]

theorem isString_body {rows : List Text} : (body rows).IsString ↔ ∀ t ∈ rows, t.IsString := by
  have hgap : gap.IsString := Text.isString_of _
  have hremark : emptyRemark.IsString := Text.isString_of _
  cases rows with
  | nil => simp [body, hgap, hremark]
  | cons t rows => simp [body, Text.isString_flatMap_iff, hgap]

/-- A page can be encoded exactly when its rows can. -/
theorem isString_render (title : String) (rows : List Text) :
    (render title rows).IsString ↔ ∀ t ∈ rows, t.IsString := by
  have hfoot : foot.IsString := Text.isString_of _
  simp [render, isString_body, hfoot]

end Page

/-! ### Drafts -/

namespace Panel

/-- The listing, member by member. -/
theorem listing_eq (h : History) :
    listing h = Value.record [
      ("configs", .list (h.records.map Record.toValue)),
      ("labels", .object (h.records.map fun r => (Text.ofNat r.key, r.labels.toValue))),
      ("selected", Value.ofNat? h.selected)] := by
  have hzip (rs : List Record) : (rs.zip (rs.map Record.labels)).map
      (fun p => (Text.ofNat p.1.key, p.2.toValue))
      = rs.map fun r => (Text.ofNat r.key, r.labels.toValue) := by
    induction rs with
    | nil => rfl
    | cons r rs ih => rw [List.map_cons, List.map_cons, List.zip_cons_cons, List.map_cons, ih]
  rw [listing, listingWith, hzip]

/-- A listing can be encoded exactly when the users of all records can. -/
@[simp] theorem isString_written_listing (h : History) :
    (Json.written (listing h)).IsString ↔ ∀ r ∈ h.records, r.Encodable := by
  simp [listing_eq, Value.record, Text.ofNat]

end Panel

namespace Draft

/-- A draft that can be encoded is sent. -/
theorem send_of_isString {d : Draft} (h : d.body.IsString) :
    ∃ body, Text.of body = d.body ∧
      d.send = .ok ⟨d.status, d.contentType, d.location, d.allow, body⟩ := by
  obtain ⟨body, hbody⟩ := Text.exists_encode_iff.mpr h
  exact ⟨body, (Text.encode_eq_ok_iff.mp hbody).symm, by rw [send, hbody]⟩

/-- A draft that cannot be encoded is not sent. -/
theorem send_of_not_isString {d : Draft} (h : ¬ d.body.IsString) : ∃ f, d.send = .error f := by
  cases hbody : d.body.encode with
  | ok s => exact absurd (Text.exists_encode_iff.mp ⟨s, hbody⟩) h
  | error f => exact ⟨f, by rw [send, hbody]⟩

end Draft

end ConfigPanel
