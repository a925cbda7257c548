import Notifications.Sink.JsonLines
/-!
What posts leave in the output. Whatever the writer does, a post adds a part of its line from the
front, all of it if the post succeeds; with a writer that never fails every post succeeds.
-/
namespace Notifications

open Notice (Group)

variable {σ ω : Type} {w : Writer ω} {bytes line : List UInt8} {groups : List Group}
  {posts : List (List Group)}

namespace Sink

/-- The sink after some posts. -/
def after (sink : Sink σ) (posts : List (List Group)) (s : σ) : σ :=
  posts.foldl (fun s groups => (sink.post groups s).sink) s

theorem after_append (sink : Sink σ) (posts more : List (List Group)) (s : σ) :
    sink.after (posts ++ more) s = sink.after more (sink.after posts s) :=
  List.foldl_append

/-- What some posts answer, one after another. -/
def answers (sink : Sink σ) : List (List Group) → σ → List (Except Failure Unit)
  | [], _ => []
  | groups :: posts, s =>
    (sink.post groups s).result :: sink.answers posts (sink.post groups s).sink

end Sink

/-- What a writer takes of what it is offered. -/
theorem Output.writeAll_bytes (w : Writer ω) (bytes : List UInt8) (o : Output ω) :
    ∃ through, through <+: bytes ∧ (o.writeAll w bytes).2.bytes = o.bytes ++ through ∧
      ((o.writeAll w bytes).1 = .ok () ↔ through = bytes) := by
  fun_induction Output.writeAll w bytes o with
  | case1 o => exact ⟨[], List.nil_prefix, by simp, by simp⟩
  | case2 bytes o hbytes e s hwrite =>
    exact ⟨[], List.nil_prefix, by simp, by simp [Ne.symm hbytes]⟩
  | case3 bytes o hbytes h s hwrite =>
    exact ⟨[], List.nil_prefix, by simp, by simp [Ne.symm hbytes]⟩
  | case4 bytes o hbytes n h s hwrite ih =>
    obtain ⟨through, hpart, heq, hok⟩ := ih
    have hsplit := List.take_append_drop (n + 1) bytes
    refine ⟨bytes.take (n + 1) ++ through, ?_, ?_, ?_⟩
    · have := (List.prefix_append_right_inj (bytes.take (n + 1))).2 hpart
      rwa [hsplit] at this
    · rw [heq, List.append_assoc]
    · rw [hok]
      constructor
      · intro hall
        rw [hall, hsplit]
      · intro hall
        exact List.append_cancel_left (hall.trans hsplit.symm)

namespace Sink

theorem writeLine_bytes (w : Writer ω) (line : List UInt8) (o : Output ω) :
    ∃ through, through <+: line ∧ (writeLine w line o).2.bytes = o.bytes ++ through ∧
      ((writeLine w line o).1 = .ok () → through = line) := by
  obtain ⟨through, hpart, hbytes, hok⟩ := o.writeAll_bytes w line
  refine ⟨through, hpart, ?_⟩
  rw [writeLine]
  rcases hwrite : o.writeAll w line with ⟨_ | _, o'⟩ <;> rw [hwrite] at hbytes hok
  · exact ⟨hbytes, fun h => by cases h⟩
  · -- a flush moves no bytes
    exact ⟨hbytes, fun _ => hok.1 rfl⟩

theorem jsonLines_post_eq (w : Writer ω) (groups : List Group) (o : Output ω) :
    ((jsonLines w).post groups o).sink = (writeLine w (jsonLine groups) o).2 ∧
      (((jsonLines w).post groups o).result = .ok () ↔
        (writeLine w (jsonLine groups) o).1 = .ok ()) := by
  rw [jsonLines]
  rcases hwrite : writeLine w (jsonLine groups) o with ⟨_ | _, o'⟩ <;> simp [hwrite]

/-- What a post gets through to the writer. -/
def through (w : Writer ω) (groups : List Group) (o : Output ω) : List UInt8 :=
  ((jsonLines w).post groups o).sink.bytes.drop o.bytes.length

theorem through_spec (w : Writer ω) (groups : List Group) (o : Output ω) :
    through w groups o <+: jsonLine groups ∧
      ((jsonLines w).post groups o).sink.bytes = o.bytes ++ through w groups o ∧
      (((jsonLines w).post groups o).result = .ok () → through w groups o = jsonLine groups) := by
  obtain ⟨hsink, hresult⟩ := jsonLines_post_eq w groups o
  obtain ⟨bytes, hpart, hbytes, hok⟩ := writeLine_bytes w (jsonLine groups) o
  have hthrough : through w groups o = bytes := by rw [through, hsink, hbytes, List.drop_left]
  rw [hthrough, hsink, hresult]
  exact ⟨hpart, hbytes, hok⟩

end Sink

/-- A writer that never fails: of what it is offered it takes something. -/
structure Writer.Reliable (w : Writer ω) : Prop where
  takes : ∀ offered s, offered ≠ [] → ∃ n s', w.write offered s = (.ok n, s') ∧ n.val ≠ 0
  flushes : ∀ s, ∃ s', w.flush s = (.ok (), s')

theorem Writer.Reliable.writeAll_ok (h : w.Reliable) (bytes : List UInt8) (o : Output ω) :
    (o.writeAll w bytes).1 = .ok () := by
  fun_induction Output.writeAll w bytes o with
  | case1 o => rfl
  | case2 bytes o hbytes e s hwrite =>
    obtain ⟨n, s', htakes, -⟩ := h.takes bytes o.writer hbytes
    rw [htakes] at hwrite
    cases hwrite
  | case3 bytes o hbytes hn s hwrite =>
    obtain ⟨n, s', htakes, hne⟩ := h.takes bytes o.writer hbytes
    rw [htakes] at hwrite
    cases hwrite
    exact absurd rfl hne
  | case4 bytes o hbytes n hn s hwrite ih => exact ih

theorem Writer.Reliable.post_ok (h : w.Reliable) (groups : List Group) (o : Output ω) :
    ((Sink.jsonLines w).post groups o).result = .ok () := by
  have hwrite := h.writeAll_ok (jsonLine groups) o
  rw [(Sink.jsonLines_post_eq w groups o).2, Sink.writeLine]
  rcases hall : o.writeAll w (jsonLine groups) with ⟨_ | _, o'⟩ <;> rw [hall] at hwrite
  · cases hwrite
  · obtain ⟨s', hflush⟩ := h.flushes o'.writer
    simp only [Output.flush, hflush]

/-- All posts to a writer that never fails succeed, and their lines are joined. -/
theorem Writer.Reliable.after_posts (h : w.Reliable) (posts : List (List Group)) (o : Output ω) :
    (Sink.jsonLines w).answers posts o = posts.map (fun _ => .ok ()) ∧
      ((Sink.jsonLines w).after posts o).bytes = o.bytes ++ (posts.map jsonLine).flatten := by
  induction posts generalizing o with
  | nil => simp [Sink.answers, Sink.after]
  | cons groups posts ih =>
    obtain ⟨-, hbytes, hall⟩ := Sink.through_spec w groups o
    have hok := h.post_ok groups o
    obtain ⟨hanswers, hafter⟩ := ih ((Sink.jsonLines w).post groups o).sink
    constructor
    · rw [Sink.answers, hok, hanswers, List.map_cons]
    · rw [hbytes, hall hok, List.append_assoc] at hafter
      exact hafter

end Notifications
