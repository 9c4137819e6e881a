/-!
# Dialogues

A conversation with a server: questions are put one after another, and each reply
decides how it goes on. Running a dialogue needs a server; what is asked can be told
without one.
-/

namespace WaitingRoom

/-- A conversation that ends with a result: it is over, or a question is put and the
reply decides the rest. -/
inductive Dialogue (Q R α : Type)
  | done (result : α)
  | ask (question : Q) (next : R → Dialogue Q R α)

namespace Dialogue

variable {Q R α σ : Type}

/-- Runs a dialogue with a server that keeps a state. Where a reply never comes, there
is no result. -/
def run (serve : Q → σ → Option R × σ) : Dialogue Q R α → σ → Option α × σ
  | done result, s => (some result, s)
  | ask question next, s =>
    match serve question s with
    | (some reply, s) => (next reply).run serve s
    | (none, s) => (none, s)

/-- A server that replies to each question in the same way, whatever was asked before,
and keeps the questions it replied to, the latest first. -/
def listening (reply : Q → Option R) (question : Q) (heard : List Q) : Option R × List Q :=
  match reply question with
  | some r => (some r, question :: heard)
  | none => (none, heard)

end Dialogue

end WaitingRoom
