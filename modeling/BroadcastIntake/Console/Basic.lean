import BroadcastIntake.Json.Basic

/-!
# The console

What the intake prints: lines of marked-up text, tables, and panels with a border.  A mark such as
`[bold green]` opens a style and `[/bold green]` closes it.  How an item is drawn is not said here.
-/

namespace BroadcastIntake

/-- A table: a title, if it has one, the names of its columns, and its rows. -/
structure ConsoleTable where
  title : Option String
  columns : List String
  rows : List (List String)
  deriving DecidableEq, Repr

/-- What stands within a panel. -/
inductive PanelContent where
  | text (markup : String)
  | table (table : ConsoleTable)
  deriving DecidableEq, Repr

/-- A panel: a title, if it has one, the colour of its border, and what it holds. -/
structure ConsolePanel where
  title : Option String
  border : String
  content : PanelContent
  deriving DecidableEq, Repr

/-- Something printed. -/
inductive ConsoleItem where
  | line (markup : String)
  | table (table : ConsoleTable)
  | panel (panel : ConsolePanel)
  deriving DecidableEq, Repr

def ConsoleTable.toJson (t : ConsoleTable) : Json :=
  .object [("table", .object [("title", .ofOption .str t.title), ("columns", .ofTexts t.columns),
    ("rows", .list (t.rows.map .ofTexts))])]

def PanelContent.toJson : PanelContent → Json
  | text markup => .str markup
  | table t => t.toJson

namespace ConsoleItem

/-- The record of an item: a line is its markup. -/
def toJson : ConsoleItem → Json
  | line markup => .str markup
  | table t => t.toJson
  | panel p => .object [("panel", .object [("title", .ofOption .str p.title),
      ("border", .str p.border), ("content", p.content.toJson)])]

def line? : ConsoleItem → Option String
  | line markup => some markup
  | table _ | panel _ => none

/-! ## Messages -/

def header (title : String) : ConsoleItem :=
  .panel ⟨none, "blue", .text s!"[bold blue]{title}[/bold blue]"⟩

/-- Something was done. -/
def success (message : String) : ConsoleItem :=
  .line s!"[bold green]✓ {message}[/bold green]"

/-- What is said of a success that says nothing itself. -/
def successMessage : String := "Processing completed!"

/-- Something failed; a text without characters counts as no details. -/
def failure (message : String) (details : Option String) : List ConsoleItem :=
  .line s!"[bold red]✗ {message}[/bold red]" ::
    ((details.filter (· ≠ "")).map fun d => .line s!"[red]Details: {d}[/red]").toList

/-- Something needs attention. -/
def warning (message : String) : ConsoleItem :=
  .line s!"[bold yellow]⚠ {message}[/bold yellow]"

/-- Something worth knowing. -/
def info (message : String) : ConsoleItem :=
  .line s!"[bold cyan]ℹ {message}[/bold cyan]"

/-- Something was left out. -/
def skipped (reason : String) : ConsoleItem :=
  .line s!"[bold yellow]⏭ {reason}[/bold yellow]"

/-- What is said of something left out without a reason. -/
def skippedMessage : String := "Skipped"

/-- The file that what follows is about. -/
def fileHeading (path : String) : ConsoleItem :=
  .line s!"\n[bold cyan]Processing:[/bold cyan] {path}"

end ConsoleItem

end BroadcastIntake
