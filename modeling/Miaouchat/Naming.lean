import Miaouchat.Display
import Miaouchat.Lengths

/-!
# The user's own name

A message that is typed is shown under the user's alias: `send_message` joins
the two with a `:`, and `print_message` parts them again. The alias is lost
before that. `main` passes its length to `new_client_name`, which takes it for
the size of the buffer, NUL included, and so keeps all but the last character
(`shownTyped_eq`).
-/

namespace Miaouchat.Gui

open Memory

def slash : UInt8 := 47

/-- The text `/add `, with its blank. -/
def addCommand : List UInt8 := [slash, 97, 100, 100, space]

/-- `new_client_name`: what `client_name` holds afterwards. -/
def newClientName (name : CText) (len : ℕ) : CText where
  bytes := name.bytes.take (len - 1)
  no_nul := fun h => name.no_nul (List.mem_of_mem_take h)

/-- The prompt of `main`, which asks again for an alias that is empty or too
long. -/
def aliasPrompt (line : CText) : Option CText :=
  if strlen line.memory > 0 ∧ strlen line.memory < 1024 - 1 then
    some (newClientName line (strlen line.memory))
  else none

/-- Whether `exec_command` consumes a message. What it does with it is left
out. -/
def execCommand (message : CText) : Bool :=
  if message.memory.headD 0 = 0 ∨ message.memory.headD 0 ≠ slash then false
  else message.memory.take 5 = addCommand

/-- The string that `send_message` builds, in a buffer of `datalen` bytes. -/
def joined (nick message : CText) : CText :=
  let datalen := strlen nick.memory + 1 + strlen message.memory + 1
  { bytes := (nick.bytes ++ colon :: message.bytes).take (datalen - 1)
    no_nul := by
      intro h
      rcases List.mem_append.mp (List.mem_of_mem_take h) with h | h
      · exact nick.no_nul h
      · exact (List.mem_cons.mp h).elim (absurd · (by decide)) message.no_nul }

/-- `send_message`, under the name that `get_client_name` returns. -/
def sendMessage (nick message : CText) (rest : Memory) : Option Shown :=
  if execCommand message then none
  else
    let data := joined nick message
    some (printMessage (block data.memory rest) (strlen data.memory))

/-- What is shown of a message that is typed after the alias. -/
def shownTyped (line message : CText) (rest : Memory) : Option Shown :=
  (aliasPrompt line).bind fun nick => sendMessage nick message rest

/-- **The message is shown as typed**, under the alias as typed. -/
def ShownAsTyped (line message : CText) (rest : Memory) : Prop :=
  shownTyped line message rest = some (.of line.bytes message.bytes)

section Typed

variable {line nick message : CText}

theorem bytes_joined (nick message : CText) :
    (joined nick message).bytes = nick.bytes ++ colon :: message.bytes := by
  refine List.take_of_length_le ?_
  rw [strlen_memory, strlen_memory, List.length_append, List.length_cons]
  omega

/-- **Joining and parting** a name without a `:` and a message. -/
theorem sendMessage_eq (hcolon : colon ∉ nick.bytes) (hmessage : execCommand message = false)
    (rest : Memory) :
    sendMessage nick message rest = some (.of nick.bytes (afterNick nick.bytes message.bytes)) := by
  have hplain : ∀ b ∈ nick.bytes, Plain b := fun b hb =>
    ⟨fun h => nick.no_nul (h ▸ hb), fun h => hcolon (h ▸ hb)⟩
  have hdata : (joined nick message).memory = nick.bytes ++ colon :: (message.bytes ++ [0]) := by
    rw [CText.memory, bytes_joined, List.append_assoc, List.cons_append]
  have hheld := holds_block (joined nick message).memory rest
  rw [sendMessage, hmessage, if_neg Bool.false_ne_true]
  dsimp only
  rw [strlen_memory, bytes_joined]
  rw [hdata] at hheld ⊢
  rw [printMessage_string hheld hplain message.no_nul le_rfl]

/-- An alias that the prompt accepts is not empty, and loses its last
character. -/
theorem aliasPrompt_ne_none (h : aliasPrompt line ≠ none) :
    line.bytes ≠ [] ∧ ∃ nick, aliasPrompt line = some nick ∧ nick.bytes = line.bytes.dropLast := by
  unfold aliasPrompt at h ⊢
  split
  · next hlen =>
    rw [strlen_memory] at hlen ⊢
    exact ⟨List.ne_nil_of_length_pos hlen.1, _, rfl, List.dropLast_eq_take.symm⟩
  · next hlen => exact absurd (if_neg hlen) h

/-- **What is shown of a typed message**: the alias without its last character,
and the message, with the `:` before it where no alias is left. -/
theorem shownTyped_eq (hline : aliasPrompt line ≠ none) (hcolon : colon ∉ line.bytes)
    (hmessage : execCommand message = false) (rest : Memory) :
    shownTyped line message rest
      = some (.of line.bytes.dropLast (afterNick line.bytes.dropLast message.bytes)) := by
  obtain ⟨-, nick, hnick, hbytes⟩ := aliasPrompt_ne_none hline
  have hcolon' : colon ∉ nick.bytes := by
    rw [hbytes]
    exact fun h => hcolon (List.mem_of_mem_dropLast h)
  rw [shownTyped, hnick, Option.bind_some, sendMessage_eq hcolon' hmessage, hbytes]

theorem Shown.nick_of_eq {as bs as' bs' : List UInt8} (h : Shown.of as bs = .of as' bs') :
    as = as' :=
  List.append_cancel_right (List.cons.inj (congrArg Shown.nick h)).2

/-- **No message is shown as typed.** -/
theorem not_shownAsTyped (hline : aliasPrompt line ≠ none) (hcolon : colon ∉ line.bytes)
    (hmessage : execCommand message = false) (rest : Memory) :
    ¬ ShownAsTyped line message rest := by
  intro h
  rw [ShownAsTyped, shownTyped_eq hline hcolon hmessage] at h
  have hsame : line.bytes.dropLast = line.bytes := Shown.nick_of_eq (Option.some.inj h)
  have hlen := congrArg List.length hsame
  have hpos := List.length_pos_of_ne_nil (aliasPrompt_ne_none hline).1
  rw [List.length_dropLast] at hlen
  omega

end Typed

/-- The alias `bob` and the message `hi`. -/
theorem not_shownAsTyped_bob :
    ¬ ShownAsTyped ⟨[98, 111, 98], by decide⟩ ⟨[104, 105], by decide⟩ fun _ => 0 :=
  not_shownAsTyped (by decide) (by decide) (by decide) _

theorem not_all_shownAsTyped :
    ¬ ∀ (line message : CText) (rest : Memory), aliasPrompt line ≠ none →
        colon ∉ line.bytes → execCommand message = false → ShownAsTyped line message rest := by
  intro hall
  have h := hall ⟨[98, 111, 98], by decide⟩ ⟨[104, 105], by decide⟩ (fun _ => 0) (by decide)
    (by decide) (by decide)
  rw [ShownAsTyped, shownTyped_eq (by decide) (by decide) (by decide)] at h
  exact absurd (Shown.nick_of_eq (Option.some.inj h)) (by decide)

end Miaouchat.Gui
