import Asm8080.Text.Basic

/-!
Contract: the bundled programs.

Owns: each program with its short name and the title that its source mentions,
the search by name, and the order in which an editor goes through them.

Does not own: the assembly of a program.
-/

namespace Asm8080

/-- A bundled program. -/
structure Sample where
  name : Text
  title : Text
  source : Text
deriving DecidableEq, Repr

namespace Sample

/-- A game for the front panel's lamps and switches. -/
def killTheBit : Sample where
  name := "kill-the-bit".toList
  title := "Kill the Bit".toList
  source := "; Kill the Bit, a front panel game by Dean McDaniel (1975)
;
; A lit bit rotates through the upper address lamps. Flip the matching
; sense switch up and back down to knock it out. Miss, and a second bit
; lights up. Start with every switch down.

        org 0h

        lxi     h,0         ; display counter
        mvi     d,080h      ; starting bit pattern
        lxi     b,0fe00h    ; counter step, sets the display speed
beg:
        ldax    d           ; put the pattern on the address lamps
        ldax    d
        ldax    d
        ldax    d
        dad     b           ; advance the counter
        jnc     beg
        in      0ffh        ; read the sense switches
        xra     d           ; toggle matching bits
        rrc                 ; rotate one place right
        mov     d,a
        jmp     beg
        end
".toList

/-- Writes every character that is typed. -/
def echo : Sample where
  name := "echo".toList
  title := "Echo".toList
  source := "; Console Echo
; Reads a character through BDOS and writes it straight back.

        org 100h            ; transient programs load at 0100h

; Jump vector for the BDOS entry at 0005h
        db 0C3h
        db 05h
        db 00h

loop:
        mvi c, 01h          ; function 1, console input
        call 0005h
        mov e, a            ; character to print
        mvi c, 02h          ; function 2, console output
        call 0005h
        jmp loop

        end
".toList

/-- Writes a disk sector and reads it back. -/
def diskTest : Sample where
  name := "disk-test".toList
  title := "Disk Test".toList
  source := "; Disk Test
; Writes a sector through the disk ports and reads it back.
; Ends with A=FFh on success, A=00h on failure.

        org 100h

; Fill the buffer with a pattern
        lxi h, 0200h
        mvi b, 080h
        mvi a, 0AAh
fill:
        mov m, a
        inx h
        dcr b
        jnz fill

; Select drive, track and sector, set the DMA address, then write
        mvi a, 00h
        out 10h
        out 11h
        mvi a, 01h
        out 12h
        mvi a, 00h
        out 13h
        mvi a, 02h
        out 14h
        mvi a, 01h
        out 15h

; Wipe the buffer
        lxi h, 0200h
        mvi b, 080h
        mvi a, 00h
clr:
        mov m, a
        inx h
        dcr b
        jnz clr

; Read the sector back
        mvi a, 00h
        out 15h

; Compare the first byte
        lxi h, 0200h
        mov a, m
        xri 0AAh
        jnz err

        mvi a, 0FFh
        hlt

err:
        mvi a, 00h
        hlt

        end
".toList

/-- The programs, in the order in which an editor goes through them. -/
def all : List Sample :=
  [killTheBit, echo, diskTest]

def names : List Text :=
  all.map Sample.name

/-- Whether two names are equal up to the case of ASCII letters. -/
def sameName (left right : Text) : Bool :=
  left.map Char.toLower == right.map Char.toLower

def find? (name : Text) : Option Sample :=
  all.find? fun sample => sameName sample.name name

/-- The program after the one whose title the source mentions; the first program
if it mentions none. -/
def following (source : Text) : Sample :=
  match all.findIdx? fun sample => Text.holds sample.title source with
  | some index => all.getD ((index + 1) % all.length) killTheBit
  | none => killTheBit

end Sample

end Asm8080
