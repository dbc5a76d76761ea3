import AvmSdk.Trace.Run

/-!
# Openings and closings that alternate

A slot that holds at most one open item: an event opens it, a later event closes it.

* `Paired opens closes es o`: the events `es` open and close in turn, each closing answering the
  opening just before it, and `o` is the opening that has not been closed yet.
* `Alternates`: the same by position. `Paired.alternates`.
* `Run.paired`: if the state keeps the open item, the selected events of every run are paired.
-/

namespace AvmSdk.Trace

variable {α σ ε : Type}

/-- Events that open and close in turn, with the opening that is not closed yet. -/
inductive Paired (opens : α → Prop) (closes : α → α → Prop) : List α → Option α → Prop
  /-- No event. -/
  | nil : Paired opens closes [] none
  /-- An opening, when nothing is open. -/
  | opened {es : List α} {a : α} (h : Paired opens closes es none) (ha : opens a) :
      Paired opens closes (es ++ [a]) (some a)
  /-- A closing, of what is open. -/
  | closed {es : List α} {a c : α} (h : Paired opens closes es (some a)) (hc : closes a c) :
      Paired opens closes (es ++ [c]) none

/-- At even positions there are openings, and behind each of them a closing that answers it. -/
def Alternates (opens : α → Prop) (closes : α → α → Prop) (es : List α) : Prop :=
  (∀ n a, es[2 * n]? = some a → opens a) ∧
    ∀ n c, es[2 * n + 1]? = some c → ∃ a, es[2 * n]? = some a ∧ closes a c

namespace Paired

variable {opens : α → Prop} {closes : α → α → Prop} {es : List α} {o : Option α}

/-- What is open came last, and the number of events is odd exactly when something is open. -/
theorem getLast (h : Paired opens closes es o) :
    (∀ a, o = some a → es.getLast? = some a ∧ opens a ∧ es.length % 2 = 1) ∧
      (o = none → es.length % 2 = 0) := by
  induction h with
  | nil => exact ⟨nofun, fun _ => rfl⟩
  | opened h ha ih =>
      refine ⟨?_, nofun⟩
      rintro _ ⟨⟩
      have hlen := ih.2 rfl
      refine ⟨List.getLast?_concat, ha, ?_⟩
      rw [List.length_append, List.length_singleton]
      omega
  | closed h hc ih =>
      refine ⟨nofun, fun _ => ?_⟩
      obtain ⟨-, -, hlen⟩ := ih.1 _ rfl
      rw [List.length_append, List.length_singleton]
      omega

/-- Paired events alternate. -/
theorem alternates (h : Paired opens closes es o) : Alternates opens closes es := by
  induction h with
  | nil => exact ⟨nofun, nofun⟩
  | @opened es a h ha ih =>
      have hlen := h.getLast.2 rfl
      constructor
      · intro n b hb
        by_cases hn : 2 * n < es.length
        · rw [List.getElem?_append_left hn] at hb
          exact ih.1 n b hb
        · rw [List.getElem?_append_right (by omega)] at hb
          obtain rfl := List.mem_singleton.mp (List.mem_of_getElem? hb)
          exact ha
      · intro n c hc
        have hn : 2 * n + 1 < es.length := by
          have := (List.getElem?_eq_some_iff.mp hc).1
          rw [List.length_append, List.length_singleton] at this
          omega
        rw [List.getElem?_append_left hn] at hc
        rw [List.getElem?_append_left (by omega)]
        exact ih.2 n c hc
  | @closed es a c h hc ih =>
      obtain ⟨hlast, -, hlen⟩ := h.getLast.1 a rfl
      constructor
      · intro n b hb
        have hn : 2 * n < es.length := by
          have := (List.getElem?_eq_some_iff.mp hb).1
          rw [List.length_append, List.length_singleton] at this
          omega
        rw [List.getElem?_append_left hn] at hb
        exact ih.1 n b hb
      · intro n d hd
        by_cases hn : 2 * n + 1 < es.length
        · rw [List.getElem?_append_left hn] at hd
          rw [List.getElem?_append_left (by omega)]
          exact ih.2 n d hd
        · have hle : 2 * n + 1 < es.length + 1 := by
            have := (List.getElem?_eq_some_iff.mp hd).1
            rwa [List.length_append, List.length_singleton] at this
          rw [List.getElem?_append_right (by omega)] at hd
          obtain rfl := List.mem_singleton.mp (List.mem_of_getElem? hd)
          refine ⟨a, ?_, hc⟩
          rw [List.getElem?_append_left (by omega), ← hlast, List.getLast?_eq_getElem?]
          congr 1
          omega

end Paired

/-- **A slot over a run.** If the state knows the open item, and every selected event opens when
nothing is open or closes what is open, then the selected events of the history are paired. -/
theorem Run.paired {init : σ → Prop} {step : σ → ε → σ → Prop} {es : List ε} {s : σ}
    (selected : ε → Prop) [DecidablePred selected] (opens : ε → Prop) (closes : ε → ε → Prop)
    (J : Option ε → σ → Prop) (hrun : Run init step es s) (hinit : ∀ s, init s → J none s)
    (hother : ∀ es s e t o, Run init step es s → J o s → step s e t → ¬ selected e → J o t)
    (hopen : ∀ es s e t, Run init step es s → J none s → step s e t → selected e →
      opens e ∧ J (some e) t)
    (hclose : ∀ es s e t a, Run init step es s → J (some a) s → step s e t → selected e →
      closes a e ∧ J none t) :
    ∃ o, Paired opens closes (es.filter (selected ·)) o ∧ J o s := by
  induction hrun with
  | start h => exact ⟨none, .nil, hinit _ h⟩
  | @snoc es s t e hrun h ih =>
      obtain ⟨o, hpaired, hJ⟩ := ih
      rw [List.filter_append]
      by_cases he : selected e
      · have hkept : [e].filter (selected ·) = [e] := by simp [he]
        rw [hkept]
        cases o with
        | none =>
            obtain ⟨hopens, hJ'⟩ := hopen es s e t hrun hJ h he
            exact ⟨some e, .opened hpaired hopens, hJ'⟩
        | some a =>
            obtain ⟨hcloses, hJ'⟩ := hclose es s e t a hrun hJ h he
            exact ⟨none, .closed hpaired hcloses, hJ'⟩
      · have hdropped : [e].filter (selected ·) = [] := by simp [he]
        rw [hdropped, List.append_nil]
        exact ⟨o, hpaired, hother es s e t o hrun hJ h he⟩

end AvmSdk.Trace
