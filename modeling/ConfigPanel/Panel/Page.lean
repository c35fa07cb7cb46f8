import ConfigPanel.Row

/-!
# Panel — the page

The page is a frame around the rows: the title, escaped, in two places of its head, then every row
on a line of its own between the same blanks, or a remark when there is none, then a foot with the
script that selects a version by a click.
-/

namespace ConfigPanel.Page

/-- Lines put together, without a line end after the last. -/
def lines (ls : List String) : Text := Text.of ("\n".intercalate ls)

/-! ### The frame -/

/-- From the beginning to the title in the head. -/
def opening : Text := lines [
    "<!DOCTYPE html>",
    "<html lang=\"en\">",
    "<head>",
    "    <meta charset=\"UTF-8\">",
    "    <title>"]

/-- From the title in the head to the one in the body. -/
def middle : Text := lines [
    "</title>",
    "    <style>",
    "        .config.selected \x7b font-weight: bold; \x7d",
    "    </style>",
    "</head>",
    "<body>",
    "    <h1>"]

/-- From the title in the body to the rows. -/
def beforeRows : Text := lines [
    "</h1>",
    "    <div class=\"configs\">",
    "        "]

/-- From the rows to the end. -/
def foot : Text := lines [
    "",
    "    </div>",
    "    <script>",
    "        document.querySelectorAll('.config').forEach(function (row) \x7b",
    "            row.addEventListener('click', function () \x7b",
    "                fetch('/api/configs/' + row.dataset.version + '/select', \x7bmethod: 'POST'\x7d)",
    "                    .then(function (response) \x7b",
    "                        if (response.ok) \x7b",
    "                            document.querySelectorAll('.config.selected').forEach(function (el) \x7b",
    "                                el.classList.remove('selected');",
    "                            \x7d);",
    "                            row.classList.add('selected');",
    "                        \x7d",
    "                    \x7d);",
    "            \x7d);",
    "        \x7d);",
    "    </script>",
    "</body>",
    "</html>"]

/-- All that stands before the rows. -/
def head (title : String) : Text :=
  let title := Markup.escape (Text.of title)
  opening ++ title ++ middle ++ title ++ beforeRows

/-! ### The rows -/

/-- What stands before and after every row. -/
def gap : Text := lines [
    "",
    "        "]

/-- What stands in the place of the rows when there is none. -/
def emptyRemark : Text := Text.of "<p class=\"empty\">No config versions available</p>"

/-- The rows in their places, or the remark that there is none. -/
def body (rows : List Text) : Text :=
  if rows.isEmpty then gap ++ emptyRemark ++ gap else rows.flatMap fun row => gap ++ row ++ gap

/-- The page with a title around rows. -/
def render (title : String) (rows : List Text) : Text := head title ++ body rows ++ foot

end ConfigPanel.Page
