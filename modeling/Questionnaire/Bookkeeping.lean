import Questionnaire.Json.Basic

/-!
# Bookkeeping fields

The fields that the conversation writes on its own account, beside the collected values, and the
scope of its progress.

## Main Definitions

* `Bookkeeping.document`, `Bookkeeping.completed`, … - the names of the fields
* `Bookkeeping.flowScope` - the scope of the progress through the sections
-/

namespace Questionnaire.Bookkeeping

/-- The form document in written form. -/
def document : Json := .str "form_document_json"

/-- The keys of the completed sections, in order. -/
def completed : Json := .str "completed_processes"

/-- An answer that another program extracted for the pending question. -/
def transient : Json := .str "questionnaire_answer"

/-- The question whose table is being collected. -/
def draftQuestion : Json := .str "__table_draft_qid"

/-- The rows of the table that is being collected, in written form. -/
def draftRows : Json := .str "__table_draft_rows_json"

/-- The files that are still missing, in written form. -/
def attachments : Json := .str "attachments_pending_json"

/-- The number of files that are still missing. -/
def attachmentCount : Json := .str "attachments_pending_count"

/-- Whether the conversation is handed over. -/
def handoffRequired : Json := .str "handoff_required"

/-- Why the conversation is handed over. -/
def handoffReasons : Json := .str "handoff_reasons"

/-- Whether nothing is left to ask in the section. -/
def complete : Json := .str "questionnaire_complete"

/-- The scope of the progress through the sections. -/
def flowScope : Json := .str "__flow__"

end Questionnaire.Bookkeeping
