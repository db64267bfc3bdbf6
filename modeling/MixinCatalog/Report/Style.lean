/-!
# Styled text

Styled text is wrapped in an escape sequence that sets the style and one that resets it. A reset
inside the text sets the style anew.
-/

namespace MixinCatalog.Report

inductive Style where
  | bold
  | boldBlue
  | boldGreen
  | dimmed
  | underline
  | yellow
  | blue
  | cyan
deriving DecidableEq, Repr

def Style.codes : Style → String
  | bold => "1"
  | boldBlue => "1;34"
  | boldGreen => "1;32"
  | dimmed => "2"
  | underline => "4"
  | yellow => "33"
  | blue => "34"
  | cyan => "36"

def sequence (codes : String) : List Char := '\x1b' :: '[' :: codes.toList ++ ['m']

def reset : List Char := sequence "0"

/-- The text with the style set anew behind each reset. -/
def restyle (setting : List Char) : List Char → List Char
  | '\x1b' :: '[' :: '0' :: 'm' :: r => reset ++ setting ++ restyle setting r
  | c :: r => c :: restyle setting r
  | [] => []

/-- The text in a style, or the text itself where colors are off. -/
def paint (color : Bool) (style : Style) (text : String) : String :=
  if color then
    let setting := sequence style.codes
    String.ofList (setting ++ restyle setting text.toList ++ reset)
  else text

theorem restyle_of_notMem (setting : List Char) {cs : List Char} (h : '\x1b' ∉ cs) :
    restyle setting cs = cs := by
  induction cs with
  | nil => rfl
  | cons c cs ih =>
    have hc : c ≠ '\x1b' := fun heq => h (heq ▸ List.mem_cons_self)
    have hcs := ih fun hmem => h (List.mem_cons_of_mem c hmem)
    rw [restyle.eq_2 _ _ _ (fun r heq _ => hc heq), hcs]

end MixinCatalog.Report
