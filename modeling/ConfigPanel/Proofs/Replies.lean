import ConfigPanel.Proofs.Encoded
import ConfigPanel.Proofs.Snapshots
import ConfigPanel.Proofs.Turns

/-!
# Panel — selections that are not answered

A selection is made before its answer is encoded.  The answer is the selected record, and it cannot
be encoded when a surrogate stands alone in the user of that record; then nothing is answered, and
the selection has been made all the same.

* `answers_iff`: a request is answered with a status exactly when its draft has that status and can
  be encoded.
* `Reached.sound`: every panel that a loaded panel leads to shows a sound history.
* `selected_of_answers`: what an answer with 200 shows has been selected.
* `select_kept_iff`: when a selection that is not answered with 200 leaves the history as it was.
-/

namespace ConfigPanel

namespace Panel

/-- The request is answered, and with the status. -/
def Reply.Answers (a : Reply) (status : Nat) : Prop :=
  ∃ res, a.response = .ok res ∧ res.status = status

/-- A request is answered with a status when this is drafted and can be encoded. -/
theorem answers_iff {p : Panel} {r : Request} {status : Nat} :
    (p.answer r).Answers status ↔
      ∃ d, (p.turn r).draft = .ok d ∧ d.status = status ∧ d.body.IsString := by
  have hresponse : (p.answer r).response = respondWith (p.turn r).draft := rfl
  rw [Reply.Answers, hresponse]
  cases (p.turn r).draft with
  | error u =>
      constructor
      · rintro ⟨res, hres, -⟩; cases hres
      · rintro ⟨d, hd, -⟩; cases hd
  | ok d =>
      have hsent : respondWith (.ok d) = d.send.mapError .unencodable := rfl
      rw [hsent]
      by_cases h : d.body.IsString
      · obtain ⟨body, -, hsend⟩ := Draft.send_of_isString h
        simp [hsend, h, Except.mapError]
      · obtain ⟨f, hsend⟩ := Draft.send_of_not_isString h
        simp [hsend, h, Except.mapError]

theorem answers_of_draft {p : Panel} {r : Request} {d : Draft} (h : (p.turn r).draft = .ok d)
    {status : Nat} : (p.answer r).Answers status ↔ d.status = status ∧ d.body.IsString := by
  rw [answers_iff, h]
  simp

/-- A draft that can be encoded is the answer. -/
theorem exists_response_of_draft {p : Panel} {r : Request} {d : Draft}
    (hdraft : (p.turn r).draft = .ok d) (hd : d.body.IsString) :
    ∃ body, Text.of body = d.body ∧
      (p.answer r).response = .ok ⟨d.status, d.contentType, d.location, d.allow, body⟩ := by
  obtain ⟨body, hbody, hsend⟩ := Draft.send_of_isString hd
  refine ⟨body, hbody, ?_⟩
  rw [answer, hdraft]
  exact congrArg (Except.mapError NoResponse.unencodable) hsend

theorem not_answers_of_error {a : Reply} {f : NoResponse} (h : a.response = .error f)
    (status : Nat) : ¬ a.Answers status := by
  rintro ⟨res, hres, -⟩
  rw [h] at hres
  cases hres

/-! ### Panels in use -/

/-- The panels that requests, and calls on the history between them, lead to. -/
inductive Reached (p : Panel) : Panel → Prop
  | start : Reached p p
  | answer {q : Panel} (hq : Reached p q) (r : Request) : Reached p (q.answer r).panel
  | call {q : Panel} (hq : Reached p q) {a : History.Act} (ha : a.Valid) :
      Reached p { q with history := q.history.after a }

/-- No request makes a sound history unsound. -/
theorem sound_answer {under : Option Int} {p : Panel} (hp : p.history.Sound under) (r : Request) :
    (p.answer r).panel.history.Sound under := by
  rcases p.answer_panel_cases r with ⟨k, ⟨-, -, -, hkey⟩, hpanel⟩ | ⟨-, hpanel⟩
  · rw [hpanel]
    refine ⟨hp.descending, fun j hj _ => ?_, hp.within, hp.validated⟩
    obtain rfl : k = j := Option.some.inj hj
    exact hkey
  · rw [hpanel]
    exact hp

theorem Reached.sound {under : Option Int} {p q : Panel} (hq : p.Reached q)
    (hp : p.history.Sound under) : ∃ limit, q.history.Sound limit := by
  induction hq with
  | start => exact ⟨under, hp⟩
  | answer _ r ih =>
      obtain ⟨limit, hs⟩ := ih
      exact ⟨limit, sound_answer hs r⟩
  | call _ ha ih =>
      obtain ⟨limit, hs⟩ := ih
      exact ⟨_, hs.after ha⟩

/-- Whatever a run of requests leads to is reached. -/
theorem run_reached (p : Panel) (rs : List Request) : p.Reached (p.run rs) := by
  induction rs using List.reverseRecOn with
  | nil => exact .start
  | append_singleton rs r ih =>
      have hrun : p.run (rs ++ [r]) = ((p.run rs).answer r).panel := by simp [run]
      rw [hrun]
      exact ih.answer r

end Panel

/-- In a list in descending order a key belongs to one record. -/
theorem History.eq_of_key {rs : List Record} (h : Descending rs) {r s : Record} (hr : r ∈ rs)
    (hs : s ∈ rs) (hkey : r.key = s.key) : r = s := by
  have hsingle := filter_key_eq_singleton h hr
  rw [hkey, filter_key_eq_singleton h hs] at hsingle
  exact (List.singleton_inj.mp hsingle).symm

namespace Panel

/-! ### Selections -/

/-- The answer to a selection can be encoded exactly when the user of the record can. -/
theorem isString_selection {x : Record} :
    (Json.written (selection x)).IsString ↔ x.Encodable := by
  have htrue : (Json.written (.bool true)).IsString := Text.isString_of _
  simp [selection, Value.record, htrue]

/-- A choice is answered with 200 exactly when the user of its record can be encoded. -/
theorem answers_of_chooses {p : Panel} {r : Request} {k : Nat} (hr : p.Chooses r k) :
    ∃ x ∈ p.history.records, x.key = k ∧ (p.turn r).draft = .ok (.json 200 (selection x)) ∧
      ((p.answer r).Answers 200 ↔ x.Encodable) := by
  obtain ⟨x, -, hx, hxk, hturn⟩ := turn_of_chooses hr
  have hdraft : (p.turn r).draft = .ok (.json 200 (selection x)) := by rw [hturn]
  refine ⟨x, hx, hxk, hdraft, ?_⟩
  rw [answers_of_draft hdraft]
  exact (and_iff_right rfl).trans isString_selection

/-- A post that chooses nothing is not answered with 200. -/
theorem not_answers_of_not_chooses {p : Panel} {r : Request} (hmethod : r.method = "POST")
    (hno : ∀ k, ¬ p.Chooses r k) : ¬ (p.answer r).Answers 200 := by
  have hrefused : ∃ d, p.turn r = p.respond d ∧ d.status ≠ 200 := by
    by_cases hselects : ∃ version, r.Selects version
    · obtain ⟨version, hr⟩ := hselects
      rcases turn_of_not_chooses hr hno with ⟨f, hturn⟩ | hturn
      · exact ⟨_, hturn, (by decide : 422 ≠ 200)⟩
      · exact ⟨_, hturn, (by decide : 404 ≠ 200)⟩
    · exact turn_of_not_selects hmethod fun version hr => hselects ⟨version, hr⟩
  obtain ⟨d, hturn, hstatus⟩ := hrefused
  rw [answers_of_draft (congrArg Turn.draft hturn)]
  exact fun hanswer => hstatus hanswer.1

/-- An answer with 200 shows the record that has been selected. -/
theorem selected_of_answers {p : Panel} (hd : History.Descending p.history.records)
    {version query : String} (hanswer : (p.answer (.forSelection version query)).Answers 200) :
    ∃ x res, (p.history.records.filter fun y => y.key == x.key) = [x] ∧
      Version.denoted (Text.of version) = .ok x.key ∧
      (p.answer (.forSelection version query)).panel.history.selected = some x.key ∧
      (p.answer (.forSelection version query)).response = .ok res ∧
      Text.of res.body = Json.written (selection x) := by
  by_cases hchosen : ∃ k, p.Chooses (.forSelection version query) k
  · obtain ⟨k, hk⟩ := hchosen
    obtain ⟨x, hx, rfl, hdraft, hencodable⟩ := answers_of_chooses hk
    obtain ⟨body, hwritten, hresponse⟩ :=
      exists_response_of_draft hdraft (isString_selection.mpr (hencodable.mp hanswer))
    refine ⟨x, _, History.filter_key_eq_singleton hd hx, (chooses_forSelection_iff.mp hk).1, ?_,
      hresponse, hwritten⟩
    rw [answer_panel_of_chooses hk]
    rfl
  · exact absurd hanswer (not_answers_of_not_chooses rfl fun k hk => hchosen ⟨k, hk⟩)

/-- A request without an answer of 200 leaves the selection alone unless it selects a record that
cannot be shown. -/
theorem selected_kept_iff {p : Panel} (hd : History.Descending p.history.records)
    {version query : String} :
    (¬ (p.answer (.forSelection version query)).Answers 200 →
      (p.answer (.forSelection version query)).panel.history.selected = p.history.selected) ↔
      ∀ x ∈ p.history.records, Version.denoted (Text.of version) = .ok x.key →
        x.Encodable ∨ p.history.selected = some x.key := by
  constructor
  · intro hkept y hy hdenoted
    have hk : p.Chooses (.forSelection version query) y.key :=
      chooses_forSelection_iff.mpr ⟨hdenoted, y, hy, rfl⟩
    obtain ⟨x, hx, hxy, -, hencodable⟩ := answers_of_chooses hk
    obtain rfl : x = y := History.eq_of_key hd hx hy hxy
    -- a record that cannot be shown gets selected, so only one that was can have been kept
    by_cases hanswer : (p.answer (.forSelection version query)).Answers 200
    · exact .inl (hencodable.mp hanswer)
    · refine .inr ?_
      rw [← hkept hanswer, answer_panel_of_chooses hk]
      rfl
  · intro hall hanswer
    rcases p.answer_panel_cases (.forSelection version query) with ⟨k, hk, hpanel⟩ | ⟨-, hpanel⟩
    · obtain ⟨x, hx, rfl, -, hencodable⟩ := answers_of_chooses hk
      rcases hall x hx (chooses_forSelection_iff.mp hk).1 with hx' | hselected
      · exact absurd (hencodable.mpr hx') hanswer
      · rw [hpanel, hselected]
        rfl
    · rw [hpanel]

/-- **When a selection that is not answered leaves everything as it was.**  A selection never
changes the records or the limit.  Answered with 200 it has selected the one record of the key that
its text denotes, and shows this record.  Not answered so, it leaves the selection alone exactly
when no record that it names, unless it is selected already, has a user in which a surrogate stands
alone. -/
theorem select_kept_iff {room : Nat} {bytes : List UInt8} {path : String} {limit : Option Int}
    {h : History} (hload : (History.ofSnapshot room bytes path limit).result = .ok h)
    {title : String} {level : Level} {site : Site} {q : Panel}
    (hq : (⟨title, h, level, site⟩ : Panel).Reached q) (version query : String) :
    let reply := q.answer (.forSelection version query)
    reply.panel.history.records = q.history.records ∧
    reply.panel.history.limit = q.history.limit ∧
    (reply.Answers 200 →
      ∃ x res, (q.history.records.filter fun y => y.key == x.key) = [x] ∧
        Version.denoted (Text.of version) = .ok x.key ∧
        reply.panel.history.selected = some x.key ∧
        reply.response = .ok res ∧ Text.of res.body = Json.written (selection x)) ∧
    ((¬ reply.Answers 200 → reply.panel.history.selected = q.history.selected) ↔
      ∀ x ∈ q.history.records, Version.denoted (Text.of version) = .ok x.key →
        x.Encodable ∨ q.history.selected = some x.key) := by
  obtain ⟨under, hs⟩ := hq.sound (History.sound_of_snapshot hload)
  have hrest := q.choosing_answer (.forSelection version query) 0
  exact ⟨records_of_choosing hrest, limit_of_choosing hrest, selected_of_answers hs.descending,
    selected_kept_iff hs.descending⟩

/-- Two records; in the user of one a surrogate stands alone. -/
def loneSurrogate : List UInt8 :=
  ("[\x7b\"version\":1,\"user\":\"\\ud800\"\x7d," ++
    "\x7b\"version\":2,\"user\":\"ann\"\x7d]").toUTF8.toList

/-- The record in whose user a surrogate stands alone. -/
def loneRecord : Record := ⟨some 1, some [.lone ⟨0, by decide⟩], none⟩

/-- The history of these two records. -/
def loneHistory : History := ⟨[⟨some 2, some (Text.of "ann"), none⟩, loneRecord], some 50, none⟩

theorem ofSnapshot_loneSurrogate :
    (History.ofSnapshot 990 loneSurrogate "configs.json" (some 50)).result = .ok loneHistory := by
  decide +kernel

/-- A record is selected that cannot be shown, and selecting it again changes nothing. -/
theorem select_kept_of_selected :
    let p : Panel := ⟨"Panel", loneHistory, .info, default⟩
    let q : Panel := (p.answer (.forSelection "1" "")).panel
    (History.ofSnapshot 990 loneSurrogate "configs.json" (some 50)).result = .ok loneHistory ∧
      p.Reached q ∧ ¬ (q.answer (.forSelection "01" "")).Answers 200 ∧
      q.history.selected = some 1 ∧
      (q.answer (.forSelection "01" "")).panel.history.selected = some 1 := by
  intro p q
  have hq : p.Reached q := .answer .start (.forSelection "1" "")
  have hselected : q.history.selected = some 1 := by decide +kernel
  have hfailed : (q.answer (.forSelection "01" "")).response
      = .error (.unencodable ⟨.lone 0, 48, 1⟩) := by decide +kernel
  have hno := not_answers_of_error hfailed 200
  obtain ⟨-, -, -, hkept⟩ := select_kept_iff ofSnapshot_loneSurrogate hq "01" ""
  refine ⟨ofSnapshot_loneSurrogate, hq, hno, hselected, ?_⟩
  rw [← hselected]
  refine hkept.mpr (fun x hx hdenoted => .inr ?_) hno
  have hone : (1 : Int) = x.key := Except.ok.inj hdenoted
  rw [hselected, show x.key = 1 by omega]

/-- A selection that is not answered has been made. -/
theorem selected_without_answer :
    (History.ofSnapshot 990 loneSurrogate "configs.json" (some 50)).result = .ok loneHistory ∧
      let p : Panel := ⟨"Panel", loneHistory, .info, default⟩
      let reply := p.answer (.forSelection "1" "")
      ¬ reply.Answers 200 ∧ p.history.selected = none ∧ reply.panel.history.selected = some 1 := by
  refine ⟨ofSnapshot_loneSurrogate, ?_⟩
  intro p reply
  have hfailed : reply.response = .error (.unencodable ⟨.lone 0, 48, 1⟩) := by decide +kernel
  exact ⟨not_answers_of_error hfailed 200, rfl, by decide +kernel⟩

end Panel

end ConfigPanel
