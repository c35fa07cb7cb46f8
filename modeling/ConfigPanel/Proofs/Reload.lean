import ConfigPanel.Proofs.Listings
import ConfigPanel.Proofs.ReadBack
import ConfigPanel.Proofs.Rows

/-!
# Panel — the listing, loaded again

The listing of a panel is a value with the records, their labels and the selection, and a value with
records is what a history is made of.  Made of its own listing, a history shows the same records:
each is written with all that validation looks at, and their list is in order already.

* `plain_listing`: the text of a listing is read back.
* `Payload.records_map_toValue`: records written out are taken for themselves, without a remark.
* `ofPayload_listing`: a listing gives the history of its records.
* `listing_loads_again`: what the listing of a reachable history holds, and what is made of it.
-/

namespace ConfigPanel

/-! ### What is listed can be read back -/

namespace Json

theorem plain_ofNat? {n? : Option Nat} (h : ∀ k, n? = some k → Numeral.Writable k) (depth : Nat) :
    Plain depth (Value.ofNat? n?) := by
  cases n? with
  | none => exact .null depth
  | some k => exact .int depth (h k rfl)

theorem plain_ofText? (t? : Option Text) (depth : Nat) : Plain depth (Value.ofText? t?) := by
  cases t? with
  | none => exact .null depth
  | some t => exact .text depth t

/-- Records, labels and listings are objects of three members. -/
theorem Plain.triple {k₁ k₂ k₃ : Text} {v₁ v₂ v₃ : Value} {depth : Nat}
    (hnames : [k₁, k₂, k₃].Nodup) (h₁ : Plain depth v₁) (h₂ : Plain depth v₂)
    (h₃ : Plain depth v₃) :
    Plain (depth + 1) (.object [(k₁, v₁), (k₂, v₂), (k₃, v₃)]) :=
  .object hnames (by simp [h₁, h₂, h₃])

end Json

/-- A validated record is read back when its key can be written. -/
theorem Record.Validated.plain_toValue {r : Record} (h : r.Validated)
    (hkey : r.key < 10 ^ Numeral.digitLimit) (depth : Nat) :
    Json.Plain (depth + 1) r.toValue := by
  have hversion : ∀ k, r.version = some k → Numeral.Writable k := by
    intro k hk
    rw [key, hk] at hkey
    exact Numeral.writable_natCast.mpr hkey
  have hdate : ∀ d, r.date = some d → Numeral.Writable d := fun d hd =>
    Timestamp.writable_of_le (h.date_le hd)
  exact .triple (by decide) (Json.plain_ofNat? hversion depth) (Json.plain_ofText? r.user depth)
    (Json.plain_ofNat? hdate depth)

theorem Labels.plain_toValue (l : Labels) (depth : Nat) : Json.Plain (depth + 1) l.toValue :=
  .triple (by decide) (.text depth l.version) (.text depth l.user) (.text depth l.date)

/-! ### Listings -/

/-- Of members with different names, each is found under its own. -/
theorem Members.get?_of_mem {name : Text} {v : Value} {ms : Members} (h : (ms.map Prod.fst).Nodup)
    (hmem : (name, v) ∈ ms) : get? name ms = some v := by
  induction ms with
  | nil => cases hmem
  | cons m ms ih =>
      obtain ⟨hm, hms⟩ := List.nodup_cons.mp h
      rw [get?_cons]
      rcases List.mem_cons.mp hmem with rfl | hmem
      · rw [if_pos rfl]
      · have hne : name ≠ m.1 := by
          rintro rfl
          exact hm (List.mem_map.mpr ⟨_, hmem, rfl⟩)
        rw [if_neg hne, ih hms hmem]

/-- Validated records that are written out are taken for themselves, without a remark. -/
theorem Payload.records_map_toValue {rs : List Record} (h : ∀ r ∈ rs, r.Validated)
    (room place : Nat) : records room place (rs.map Record.toValue) = .quiet (.ok rs) := by
  induction rs generalizing place with
  | nil => rfl
  | cons r rs ih =>
      obtain ⟨hr, hrs⟩ := List.forall_mem_cons.mp h
      rw [List.map_cons, records, hr.ofValue_toValue, ih hrs]
      rfl

namespace Panel

/-- The labels of a listing, under the texts of the keys. -/
def labelMembers (rs : List Record) : Members :=
  rs.map fun r => (Text.ofNat r.key, r.labels.toValue)

/-- Records with different keys have their labels under different names. -/
theorem nodup_labelMembers {rs : List Record} (hd : History.Descending rs) :
    ((labelMembers rs).map Prod.fst).Nodup := by
  have hnames : (labelMembers rs).map Prod.fst = (rs.map Record.key).map Text.ofNat := by
    rw [labelMembers, List.map_map, List.map_map]
    rfl
  rw [hnames]
  exact (History.nodup_keys hd).map Text.ofNat_injective

theorem listing_eq_record (h : History) :
    listing h = Value.record [("configs", .list (h.records.map Record.toValue)),
      ("labels", .object (labelMembers h.records)), ("selected", Value.ofNat? h.selected)] :=
  listing_eq h

/-- The listing of records with different keys is nested three brackets deep, and plain when its
numbers can be written. -/
theorem plain_listing {h : History} (hc : h.Clear) (hd : History.Descending h.records)
    (hselected : h.Legible) (depth : Nat) : Json.Plain (depth + 3) (listing h) := by
  rw [listing_eq_record]
  have hconfigs : Json.Plain (depth + 2) (.list (h.records.map Record.toValue)) :=
    .list (List.forall_mem_map.mpr fun x hx =>
      (hc.validated x hx).plain_toValue (hc.keys x hx) depth)
  have hlabels : Json.Plain (depth + 2) (.object (labelMembers h.records)) :=
    .object (nodup_labelMembers hd)
      (List.forall_mem_map.mpr fun x _ => x.labels.plain_toValue depth)
  have hnames : [Text.of "configs", Text.of "labels", Text.of "selected"].Nodup := by decide
  exact .triple hnames hconfigs hlabels (Json.plain_ofNat? hselected _)

/-- Of a listing, only the records count when it is loaded. -/
theorem ofPayload_listing_eq (room : Nat) (h : History) (limit : Option Int) :
    History.ofPayload room (listing h) limit
      = History.ofPayload room (.list (h.records.map Record.toValue)) limit := by
  rw [listing_eq_record]
  refine Payload.ofPayload_object ?_ limit
  rw [List.map_cons, Members.get?_cons, if_pos rfl]

/-- A listing gives a history that shows its records, when they are in order and the limit has room
for them. -/
theorem ofPayload_listing {h : History} {limit : Option Int} (hd : History.Descending h.records)
    (hvalid : ∀ r ∈ h.records, r.Validated)
    (hroom : ∀ n, limit = some n → (h.records.length : Int) ≤ n) (room : Nat) :
    History.ofPayload room (listing h) limit = .quiet (.ok ⟨h.records, limit, none⟩) := by
  have hbuild : History.build h.records limit = .ok ⟨h.records, limit, none⟩ := by
    refine History.build_eq_ok_iff.mpr ⟨fun n hn => ?_, ?_⟩
    · exact Int.le_trans (Int.natCast_nonneg _) (hroom n hn)
    · rw [History.stored_of_descending hd hroom]
  have hentries : Payload.entries (.list (h.records.map Record.toValue))
      = .ok (h.records.map Record.toValue) := rfl
  rw [ofPayload_listing_eq, History.ofPayload, hentries]
  simp only [Payload.records_map_toValue hvalid, Logged.map, Logged.quiet, Except.bind, hbuild]
  rfl

/-- **The listing says what is stored, and can be loaded again.**  When the numbers of a history can
be written and the users of its records can be shown, the listing is answered, by a text that is
read back as the listing wherever there is room for three brackets.  It lists the stored records,
each with its three fields, in strictly descending order of their keys; under the decimal text of
the key of each, and under no other name, the three labels of this very record, which are those
worked out for it; and as selected nothing, or the key of exactly one of them.  A history made of
it, under no limit or one with room for the records, shows the same records with nothing logged. -/
theorem listing_loads_again {p : Panel} (hp : p.history.Reachable)
    (hkeys : ∀ x ∈ p.history.records, x.key < 10 ^ Numeral.digitLimit)
    (hselected : ∀ k, p.history.selected = some k → k < 10 ^ Numeral.digitLimit)
    (husers : ∀ x ∈ p.history.records, x.Encodable) (query : String) :
    ∃ body labels selected,
      (p.answer ⟨"GET", "/api/configs", query⟩).response
        = .ok ⟨200, some "application/json", none, none, body⟩ ∧
      Text.of body = Json.written (listing p.history) ∧
      (∀ room, Json.read (room + 3) (Text.of body) = .ok (listing p.history)) ∧
      listing p.history = Value.record [
        ("configs", .list (p.history.records.map fun x => Value.record [
          ("version", Value.ofNat? x.version), ("user", Value.ofText? x.user),
          ("date", Value.ofNat? x.date)])),
        ("labels", .object labels), ("selected", selected)] ∧
      History.Descending p.history.records ∧
      labels.map Prod.fst = p.history.records.map (fun x => Text.ofNat x.key) ∧
      (labels.map Prod.fst).Nodup ∧
      Members.ofPairs labels = labels ∧
      (∀ x ∈ p.history.records, x.loggedLabels = .quiet (.ok x.labels) ∧
        Members.get? (Text.ofNat x.key) labels = some (Value.record [
          ("version", .text x.labels.version), ("user", .text x.labels.user),
          ("date", .text x.labels.date)])) ∧
      (p.history.selected = none ∧ selected = .null ∨
        ∃ x, p.history.selected = some x.key ∧ selected = .int x.key ∧
          p.history.records.filter (fun y => y.key == x.key) = [x]) ∧
      ∀ (room : Nat) (limit : Option Int),
        (∀ n, limit = some n → (p.history.records.length : Int) ≤ n) →
        History.ofPayload room (listing p.history) limit
          = .quiet (.ok ⟨p.history.records, limit, none⟩) := by
  obtain ⟨under, hs⟩ := hp.sound
  have hshort : p.history.Legible := History.legible_iff.mpr hselected
  have hbody : (Draft.json 200 (listing p.history)).body.IsString :=
    (isString_written_listing p.history).mpr husers
  obtain ⟨body, hwritten, hresponse⟩ :=
    exists_response (turn_listing (hp.clear hkeys) hshort query) hbody
  have hread (room : Nat) : Json.read (room + 3) (Text.of body) = .ok (listing p.history) := by
    rw [hwritten]
    exact Json.read_written (plain_listing (hp.clear hkeys) hs.descending hshort room)
  have hnames := nodup_labelMembers hs.descending
  refine ⟨body, labelMembers p.history.records, Value.ofNat? p.history.selected, hresponse,
    hwritten, hread, listing_eq_record p.history, hs.descending, ?_, hnames,
    Members.ofPairs_of_nodup hnames, fun x hx => ⟨?_, ?_⟩, ?_,
    fun room limit hroom => ofPayload_listing hs.descending hs.validated hroom room⟩
  · rw [labelMembers, List.map_map]
    rfl
  · rw [(hs.validated x hx).loggedLabels, Record.writtenLabels_of_lt (hkeys x hx)]
  · exact Members.get?_of_mem hnames (List.mem_map.mpr ⟨x, hx, rfl⟩)
  · rcases hs.selected_cases hshort with hnone | ⟨x, hx, hsingle⟩
    · exact .inl ⟨hnone, by rw [hnone]; rfl⟩
    · exact .inr ⟨x, hx, by rw [hx]; rfl, hsingle⟩

/-- Two records under a limit of two; the one without a version is selected by a request. -/
theorem listing_loads_again_at_limit :
    let ann : Record := ⟨some 7, some (Text.of "ann"), some 1700000000⟩
    let plain : Record := ⟨none, none, none⟩
    let q : Panel := (sample "Panel" "ann").run [Request.forSelection "00" ""]
    q.history.Reachable ∧ (∀ x ∈ q.history.records, x.key < 10 ^ Numeral.digitLimit) ∧
      (∀ k, q.history.selected = some k → k < 10 ^ Numeral.digitLimit) ∧
      (∀ x ∈ q.history.records, x.Encodable) ∧
      q.history.records = [ann, plain] ∧ q.history.selected = some 0 ∧
      (∃ body labels, (q.answer ⟨"GET", "/api/configs", ""⟩).response
          = .ok ⟨200, some "application/json", none, none, body⟩ ∧
        labels.map Prod.fst = [Text.of "7", Text.of "0"] ∧
        Members.get? (Text.of "0") labels = some plain.labels.toValue) ∧
      History.ofPayload 990 (listing q.history) (some 2)
        = .quiet (.ok ⟨[ann, plain], some 2, none⟩) := by
  intro ann plain q
  obtain ⟨-, hsame, hq, hkeys, husers, hshort⟩ :=
    sample_run "Panel" "ann" [Request.forSelection "00" ""]
  have hrecords : q.history.records = [ann, plain] := hsame
  obtain ⟨body, labels, selected, hresponse, -, -, -, -, hnames, -, -, hlabels, -, hagain⟩ :=
    listing_loads_again hq hkeys hshort husers ""
  have hplain : plain ∈ q.history.records :=
    hrecords ▸ List.mem_cons_of_mem _ (List.mem_singleton_self plain)
  have hzero : Text.ofNat plain.key = Text.of "0" := by decide
  have hagain := hagain 990 (some 2) fun n hn => by
    obtain rfl := Option.some.inj hn
    rw [hrecords]
    decide
  rw [hrecords] at hnames hagain
  exact ⟨hq, hkeys, hshort, husers, hrecords, by decide +kernel,
    ⟨body, labels, hresponse, hnames.trans (by decide), hzero ▸ (hlabels plain hplain).2⟩, hagain⟩

end Panel

end ConfigPanel
