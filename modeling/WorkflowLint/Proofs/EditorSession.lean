import Mathlib.Data.List.Induction
import WorkflowLint.Editor.Message

/-!
# What an editor is shown

In a session events about many documents come in any order. Whatever the order, an editor is told
about each event exactly once, and what it is told about a document is what the linter finds in the
text that was sent last. Events about other documents make no difference.

## Design

The server keeps a list of documents. The account it is compared with keeps none: the document of a
name is what the events about this name, taken alone, have made of it.

## Main definitions

* `WorkflowLint.Editor.Event.revise` — what an event makes of the document it is about.
* `WorkflowLint.Editor.documentAfter` — the document of a name after some events.
* `WorkflowLint.Editor.Conforms` — only open documents are changed and saved.
* `WorkflowLint.Editor.announcement` — what is to be told about a document, or about none.

## Main results

* `WorkflowLint.Editor.Session.find?_after` — an event revises the document it is about and leaves
  the others alone.
* `WorkflowLint.Editor.Edit.toList_apply`, `WorkflowLint.Editor.Server.find?_handle_edit` — what
  edits make of a text and of a document.
* `WorkflowLint.Editor.filter_run` — the publications about a document are those of its own events.
* `WorkflowLint.Editor.publications_current` — no publication is stale or about another document.
-/

set_option autoImplicit false

namespace WorkflowLint.Editor

/-! ## What has been sent -/

/-- What an event makes of the document it is about. A change has to find the document open, and one
without any text changes nothing. -/
def Event.revise : Event → Option Document → Option Document
  | .open document, _ => some document
  | .change uri version texts, d? =>
    d?.map fun d =>
      match texts.getLast? with
      | some text => ⟨uri, version, text⟩
      | none => d
  | .save _, d? => d?
  | .close _, _ => none

/-- The document of the given name after some events, if it is open. Only the events about this
document count. -/
def documentAfter (es : List Event) (uri : String) : Option Document :=
  (es.filter fun e => e.uri == uri).foldl (fun d? e => e.revise d?) none

/-- Does an event make sense for open documents only? -/
def Event.needsDocument : Event → Bool
  | .change _ _ _ => true
  | .save _ => true
  | _ => false

/-- Is a document closed by the event? -/
def Event.isClose : Event → Bool
  | .close _ => true
  | _ => false

/-- Only open documents are changed and saved. -/
def Conforms (es : List Event) : Prop :=
  ∀ i, (h : i < es.length) → es[i].needsDocument = true →
    (documentAfter (es.take i) es[i].uri).isSome = true

instance (es : List Event) : Decidable (Conforms es) :=
  inferInstanceAs (Decidable (∀ i, (h : i < es.length) → _))

/-- What is to be told about a document: the findings in its text, with its version. Where there is
no document, there is nothing to tell. -/
def announcement (uri : String) : Option Document → Publication
  | some d => ⟨uri, some d.version, (lint d.text).map Marker.ofDiagnostic⟩
  | none => ⟨uri, none, []⟩

lemma documentAfter_concat (es : List Event) (e : Event) (uri : String) :
    documentAfter (es ++ [e]) uri =
      if e.uri = uri then e.revise (documentAfter es uri) else documentAfter es uri := by
  by_cases h : e.uri = uri
  · simp [documentAfter, h]
  · simp [documentAfter, h]

/-- A document is what its own events have made of it. -/
lemma documentAfter_filter (es : List Event) (uri : String) :
    documentAfter (es.filter fun e => e.uri == uri) uri = documentAfter es uri := by
  rw [documentAfter, documentAfter, List.filter_filter]
  simp only [Bool.and_self]

/-- A conforming event leaves a document open, unless it closes it. -/
lemma Event.isSome_revise {e : Event} {d? : Option Document} (hclose : e.isClose = false)
    (hneeds : e.needsDocument = true → d?.isSome = true) : (e.revise d?).isSome = true := by
  cases e with
  | «open» document => rfl
  | change uri version texts =>
    rw [revise, Option.isSome_map]
    exact hneeds rfl
  | save uri => exact hneeds rfl
  | close uri => exact Bool.noConfusion hclose

/-! ## The documents that the server keeps -/

namespace Session

variable (s : Session)

lemma find?_erase_self (uri : String) : (s.erase uri).find? uri = none := by
  simp [find?, erase]

lemma find?_erase_of_ne {uri uri' : String} (h : uri' ≠ uri) :
    (s.erase uri').find? uri = s.find? uri := by
  induction s with
  | nil => rfl
  | cons d s ih =>
    simp only [find?, erase, List.filter_cons] at ih ⊢
    by_cases hd : d.uri = uri'
    · simp [hd, h, ih]
    · simp [hd, List.find?_cons, ih]

lemma find?_insert_self (d : Document) : (s.insert d).find? d.uri = some d := by
  simp [find?, insert]

lemma find?_insert_of_ne {d : Document} {uri : String} (h : d.uri ≠ uri) :
    (s.insert d).find? uri = s.find? uri := by
  rw [← find?_erase_of_ne s h]
  simp [find?, insert, h]

/-- **An event revises the document it is about** and leaves the others alone. -/
lemma find?_after (e : Event) (uri : String) :
    (s.after e).find? uri =
      if e.uri = uri then e.revise (s.find? uri) else s.find? uri := by
  cases e with
  | «open» document =>
    by_cases h : document.uri = uri
    · subst h
      simp [after, Event.uri, Event.revise, find?_insert_self]
    · simp [after, Event.uri, h, find?_insert_of_ne]
  | change uri' version texts =>
    by_cases h : uri' = uri
    · subst h
      cases htexts : texts.getLast? with
      | none => cases hfind : s.find? uri' <;> simp [after, Event.uri, Event.revise, htexts, hfind]
      | some text =>
        cases hfind : s.find? uri' with
        | none => simp [after, Event.uri, Event.revise, htexts, hfind]
        | some d =>
          have hinsert := s.find?_insert_self ⟨uri', version, text⟩
          simpa [after, Event.uri, Event.revise, htexts, hfind] using hinsert
    · simp only [after, Event.uri, h, if_false]
      split
      · exact find?_insert_of_ne s h
      · rfl
  | save uri' =>
    simp only [after, Event.revise]
    split <;> rfl
  | close uri' =>
    by_cases h : uri' = uri
    · subst h
      simp [after, Event.uri, Event.revise, find?_erase_self]
    · simp [after, Event.uri, h, find?_erase_of_ne]

/-- **The server keeps what has been sent last.** -/
lemma find?_foldl_after (es : List Event) (uri : String) :
    find? (es.foldl after []) uri = documentAfter es uri := by
  induction es using List.reverseRecOn with
  | nil => rfl
  | append_singleton es e ih =>
    rw [List.foldl_append, List.foldl_cons, List.foldl_nil, find?_after, ih, documentAfter_concat]

lemma publish_eq (uri : String) : s.publish uri = announcement uri (s.find? uri) := by
  unfold publish announcement
  cases s.find? uri <;> rfl

end Session

lemma uri_announcement (uri : String) (d? : Option Document) : (announcement uri d?).uri = uri := by
  cases d? <;> rfl

/-! ## Edits -/

section Edits

variable {cs : List Char} {p : Position} {r : Range} {e : Edit} {edits : List Edit} {text : String}

lemma behindLine_suffix (cs : List Char) : behindLine cs <:+ cs := by
  fun_induction behindLine cs with
  | case1 => exact List.suffix_rfl
  | case2 cs => exact ⟨['\r', '\n'], rfl⟩
  | case3 cs => exact List.suffix_cons _ _
  | case4 cs => exact List.suffix_cons _ _
  | case5 c cs _ _ _ ih => exact ih.trans (List.suffix_cons _ _)

lemma behindUnits_suffix (count : Nat) (cs : List Char) : behindUnits count cs <:+ cs := by
  fun_induction behindUnits count cs with
  | case1 | case2 | case3 => exact List.suffix_rfl
  | case4 _ c cs _ _ ih => exact ih.trans (List.suffix_cons _ _)

/-- What is behind a position is an end of the text. -/
lemma behind_suffix (p : Position) (cs : List Char) : behind p cs <:+ cs := by
  refine (behindUnits_suffix _ _).trans ?_
  induction p.line.toNat with
  | zero => exact List.suffix_rfl
  | succ count ih => exact (behindLine_suffix _).trans ih

/-- **An edit leaves the text in front of its range and behind it as it is.** -/
lemma Edit.toList_apply (h : e.range = some r) :
    ∃ before, text.toList = before ++ behind r.start text.toList ∧
      (e.apply text).toList = before ++ e.text.toList ++ behind r.stop text.toList := by
  obtain ⟨before, hbefore⟩ := behind_suffix r.start text.toList
  refine ⟨before, hbefore.symm, ?_⟩
  have hlength : text.toList.length - (behind r.start text.toList).length = before.length := by
    have hsum := congrArg List.length hbefore
    rw [List.length_append] at hsum
    omega
  have htake : text.toList.take before.length = before := by
    rw [← hbefore, List.take_left]
  simp only [apply, h, String.toList_ofList, hlength, htake]

/-- Both parts of a line end are behind a line, and a character may count twice. -/
example : Edit.apply ⟨some ⟨⟨1, 2⟩, ⟨2, 1⟩⟩, "c"⟩ "a\r\n𝄞b\nde" = "a\r\n𝄞ce" := by
  decide +kernel

/-- The last of the texts has all of the edits in it. -/
lemma Edit.getLast?_texts (edits : List Edit) (text : String) :
    (Edit.texts edits text).getLast? =
      if edits = [] then none else some (edits.foldl (fun text e => e.apply text) text) := by
  induction edits generalizing text with
  | nil => rfl
  | cons e edits ih =>
    rw [texts, List.getLast?_cons, ih, if_neg (List.cons_ne_nil _ _)]
    cases edits <;> simp

/-- **A document that is edited holds its text with all of the edits made**, one after the other. -/
lemma Server.find?_handle_edit (s : Server) (uri : String) (version : Int) (edits : List Edit) :
    (s.handle (.edit uri version edits)).1.session.find? uri =
      (s.session.find? uri).map fun d =>
        if edits = [] then d
        else ⟨uri, version, edits.foldl (fun text e => e.apply text) d.text⟩ := by
  have huri : ∀ texts, (Event.change uri version texts).uri = uri := fun _ => rfl
  rw [handle, take, Session.find?_after, if_pos (huri _), Event.revise]
  cases s.session.find? uri with
  | none => rfl
  | some d =>
    simp only [Option.map_some, Option.getD_some, Edit.getLast?_texts]
    by_cases hnone : edits = [] <;> simp [hnone]

end Edits

/-! ## Publications -/

/-- **There is one publication per event**, made when the event has taken place. -/
lemma getElem?_runFrom (s : Session) (es : List Event) (i : Nat) :
    (runFrom s es)[i]? =
      es[i]?.map fun e => ((es.take (i + 1)).foldl Session.after s).publish e.uri := by
  induction es generalizing s i with
  | nil => rfl
  | cons e es ih =>
    cases i with
    | zero => rfl
    | succ i => exact ih (s.after e) i

lemma getElem?_run (es : List Event) (i : Nat) :
    (run es)[i]? =
      es[i]?.map fun e => announcement e.uri (documentAfter (es.take (i + 1)) e.uri) := by
  rw [run, getElem?_runFrom]
  simp only [Session.publish_eq, Session.find?_foldl_after]

/-- What is published does not depend on what is yet to come. -/
lemma runFrom_append (s : Session) (es es' : List Event) :
    runFrom s (es ++ es') = runFrom s es ++ runFrom (es.foldl Session.after s) es' := by
  induction es generalizing s with
  | nil => rfl
  | cons e es ih => rw [List.cons_append, runFrom, runFrom, ih, List.cons_append, List.foldl_cons]

lemma map_uri_runFrom (s : Session) (es : List Event) :
    (runFrom s es).map Publication.uri = es.map Event.uri := by
  induction es generalizing s with
  | nil => rfl
  | cons e es ih =>
    rw [runFrom, List.map_cons, ih, Session.publish_eq, uri_announcement, List.map_cons]

lemma length_run (es : List Event) : (run es).length = es.length := by
  simpa [run] using congrArg List.length (map_uri_runFrom [] es)

lemma take_run (es : List Event) (n : Nat) : (run es).take n = run (es.take n) := by
  have happend := runFrom_append [] (es.take n) (es.drop n)
  rw [List.take_append_drop] at happend
  rcases Nat.le_total n es.length with hle | hge
  · have hlength : (run (es.take n)).length = n := by
      rw [length_run, List.length_take_of_le hle]
    rw [run, happend]
    exact List.take_left' hlength
  · rw [List.take_of_length_le hge, List.take_of_length_le (by rwa [length_run])]

/-- **Events about other documents make no difference.** Two sessions that agree on a document
publish the same about it, if one of them is spared the events about all others.

**Proof sketch.** Induction on the events. An event about the document is taken in by both sessions,
which go on to agree on it; any other one is taken in by the first session only, which neither
touches the document nor publishes anything about it. -/
lemma filter_runFrom {s s' : Session} {uri : String} (h : s.find? uri = s'.find? uri)
    (es : List Event) :
    (runFrom s es).filter (fun p => p.uri == uri) =
      runFrom s' (es.filter fun e => e.uri == uri) := by
  induction es generalizing s s' with
  | nil => rfl
  | cons e es ih =>
    have hstep := s.find?_after e uri
    rw [runFrom, List.filter_cons, List.filter_cons, Session.publish_eq, uri_announcement]
    by_cases he : e.uri = uri
    · subst he
      have hstep' := s'.find?_after e e.uri
      rw [if_pos rfl] at hstep hstep'
      have hagree : (s.after e).find? e.uri = (s'.after e).find? e.uri := by
        rw [hstep, hstep', h]
      simp only [beq_self_eq_true, if_true, runFrom, Session.publish_eq, ih hagree, hagree]
    · rw [if_neg he] at hstep
      simp only [beq_iff_eq, he, if_false]
      exact ih (hstep.trans h)

lemma filter_run (es : List Event) (uri : String) :
    (run es).filter (fun p => p.uri == uri) = run (es.filter fun e => e.uri == uri) :=
  filter_runFrom rfl es

/-- **The last publication about a document** describes it as it is now. -/
lemma getLast?_filter_run {es : List Event} {uri : String} {d : Document}
    (h : documentAfter es uri = some d) :
    ((run es).filter fun p => p.uri == uri).getLast? = some (announcement uri (some d)) := by
  rw [filter_run]
  rcases List.eq_nil_or_concat (es.filter fun e => e.uri == uri) with hnil | ⟨before, e, hlast⟩
  · rw [documentAfter, hnil] at h
    cases h
  · have huri : e.uri = uri := by
      have hmem : e ∈ es.filter fun e => e.uri == uri := by simp [hlast]
      simpa using (List.mem_filter.1 hmem).2
    have hlength : (run (before ++ [e])).length = before.length + 1 := by
      rw [length_run, List.length_append, List.length_singleton]
    have hdocument : documentAfter (before ++ [e]) uri = some d := by
      rw [← h, ← List.concat_eq_append, ← hlast, documentAfter_filter]
    have htake : (before ++ [e]).take (before.length + 1) = before ++ [e] :=
      List.take_of_length_le (by simp)
    rw [hlast, List.concat_eq_append, List.getLast?_eq_getElem?, hlength, Nat.add_sub_cancel,
      getElem?_run, List.getElem?_concat_length, Option.map_some, htake, huri, hdocument]

/-! ## Conforming sessions -/

/-- One more event conforms if it finds its document as it needs it. -/
lemma conforms_concat {es : List Event} {e : Event} :
    Conforms (es ++ [e]) ↔
      Conforms es ∧ (e.needsDocument = true → (documentAfter es e.uri).isSome = true) := by
  constructor
  · intro h
    refine ⟨fun i hi hneeds => ?_, fun hneeds => ?_⟩
    · have hlt : i < (es ++ [e]).length := by simp; omega
      have hget : (es ++ [e])[i] = es[i] := List.getElem_append_left hi
      have hi' := h i hlt (by rw [hget]; exact hneeds)
      rwa [hget, List.take_append_of_le_length (Nat.le_of_lt hi)] at hi'
    · have hlast := h es.length (by simp) (by simpa using hneeds)
      simpa using hlast
  · rintro ⟨hes, he⟩ i hi hneeds
    by_cases hlt : i < es.length
    · have hget : (es ++ [e])[i] = es[i] := List.getElem_append_left hlt
      rw [hget] at hneeds ⊢
      rw [List.take_append_of_le_length (Nat.le_of_lt hlt)]
      exact hes i hlt hneeds
    · obtain rfl : i = es.length := by
        simp only [List.length_append, List.length_singleton] at hi
        omega
      simp only [List.getElem_concat_length] at hneeds ⊢
      rw [List.take_left]
      exact he hneeds

/-- The events about one document conform if all events do. -/
lemma Conforms.filter {es : List Event} (h : Conforms es) (uri : String) :
    Conforms (es.filter fun e => e.uri == uri) := by
  induction es using List.reverseRecOn with
  | nil => exact h
  | append_singleton es e ih =>
    obtain ⟨hes, he⟩ := conforms_concat.1 h
    rw [List.filter_append]
    by_cases huri : e.uri = uri
    · subst huri
      rw [List.filter_cons_of_pos (by simp), List.filter_nil]
      exact conforms_concat.2 ⟨ih hes, by rwa [documentAfter_filter]⟩
    · rw [List.filter_cons_of_neg (by simpa using huri), List.filter_nil, List.append_nil]
      exact ih hes

/-! ## The main result -/

/-- **An editor is never shown stale markers, nor those of another document.** In a session in which
only open documents are changed and saved:

* there is one publication per event, in the order of the events and about the same documents;
* behind the event of index `i` it has the version of the document at that moment and the markers of
  what the linter finds in its text, or, if the document was closed, no version and no markers;
* after any number of events, the last publication about an open document describes the text that
  it has now;
* the publications about one document are those of the session of its own events, which conforms,
  too, and in which the document is the same.

**Proof sketch.** An event revises the document it is about and leaves the others alone
(`Session.find?_after`), so the server keeps what has been sent last. Two sessions that agree on a
document and differ in other events only go on to agree on it (`filter_runFrom`). -/
theorem publications_current (es : List Event) (h : Conforms es) :
    (run es).map Publication.uri = es.map Event.uri ∧
      (∀ i, (hi : i < es.length) →
        (es[i].isClose = true → (run es)[i]? = some ⟨es[i].uri, none, []⟩) ∧
        (es[i].isClose = false → ∃ d, documentAfter (es.take (i + 1)) es[i].uri = some d ∧
          (run es)[i]? =
            some ⟨es[i].uri, some d.version, (lint d.text).map Marker.ofDiagnostic⟩)) ∧
      (∀ n uri d, documentAfter (es.take n) uri = some d →
        (((run es).take n).filter fun p => p.uri == uri).getLast? =
          some ⟨uri, some d.version, (lint d.text).map Marker.ofDiagnostic⟩) ∧
      ∀ uri, (run es).filter (fun p => p.uri == uri) = run (es.filter fun e => e.uri == uri) ∧
        Conforms (es.filter fun e => e.uri == uri) ∧
        documentAfter (es.filter fun e => e.uri == uri) uri = documentAfter es uri := by
  refine ⟨map_uri_runFrom [] es, fun i hi => ?_, fun n uri d hd => ?_, fun uri => ?_⟩
  · have hrun : (run es)[i]? =
        some (announcement es[i].uri (documentAfter (es.take (i + 1)) es[i].uri)) := by
      rw [getElem?_run, List.getElem?_eq_getElem hi, Option.map_some]
    have hdocument : documentAfter (es.take (i + 1)) es[i].uri =
        es[i].revise (documentAfter (es.take i) es[i].uri) := by
      rw [List.take_succ_eq_append_getElem hi, documentAfter_concat, if_pos rfl]
    refine ⟨fun hclose => ?_, fun hclose => ?_⟩
    · have hnone : es[i].revise (documentAfter (es.take i) es[i].uri) = none := by
        cases he : es[i] with
        | close uri => rfl
        | _ => simp [he, Event.isClose] at hclose
      rw [hrun, hdocument, hnone, announcement]
    · obtain ⟨d, hd⟩ := Option.isSome_iff_exists.1 (Event.isSome_revise hclose (h i hi))
      exact ⟨d, hdocument.trans hd, by rw [hrun, hdocument, hd, announcement]⟩
  · rw [take_run, getLast?_filter_run hd, announcement]
  · exact ⟨filter_run es uri, h.filter uri, documentAfter_filter es uri⟩

/-- Two documents are edited in turns, and one is closed: the other keeps the markers of the last of
its texts. -/
theorem publications_current_two_documents :
    let es : List Event := [.open ⟨"a", 1, ""⟩, .open ⟨"b", 7, "@"⟩,
      .change "a" 2 ["policy", "halt"], .save "b", .change "a" 3 [], .close "b"]
    Conforms es ∧ ((run es).filter fun p => p.uri == "a").getLast? =
      some ⟨"a", some 2, (lint "halt").map Marker.ofDiagnostic⟩ ∧
      (run es)[5]? = some ⟨"b", none, []⟩ := by
  intro es
  have hes : Conforms es := by decide
  obtain ⟨-, hstep, hlast, -⟩ := publications_current es hes
  exact ⟨hes, hlast 6 "a" ⟨"a", 2, "halt"⟩ (by decide), (hstep 5 (by decide)).1 rfl⟩

end WorkflowLint.Editor
